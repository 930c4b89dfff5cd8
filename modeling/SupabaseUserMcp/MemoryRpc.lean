import Mathlib.Algebra.Order.Ring.Rat
import Mathlib.Data.Prod.Lex
import SupabaseUserMcp.PolicyLab
import SupabaseUserMcp.Sql.Keyset

/- The memory read functions. All three run with their caller's rights, so that a memory
   passes the policy before any of the conditions written here. The two that return pages
   name the row to continue from by a digest of its key. -/
namespace MemoryRpc

open Sql PolicyLab

/-- What raises an error raises this. -/
structure SqlError where
  errcode : Text
  message : Text
deriving DecidableEq

def invalidRequest : SqlError := ⟨"22023", "invalid request"⟩

def invalidCursor : SqlError := ⟨"22023", "invalid cursor"⟩

def moreThanOneRow : SqlError :=
  ⟨"21000", "more than one row returned by a subquery used as an expression"⟩

/-- The server's own functions, in the time zone and collation of the session. -/
structure Server where
  -- the order of the default collation, in which different texts are different
  collation : LinearOrder Text
  lower : Text → Text
  md5 : Text → Text
  -- `created_at::text`: digits, signs, points, colons, spaces and letters
  timestampText : Timestamp → Text
  timestampText_bar : ∀ time, '|' ∉ (timestampText time).toList
  -- a timestamp in `jsonb_build_object`
  timestampJson : Timestamp → Text
  -- `text::timestamptz`, which reads words such as `yesterday` against `now()`
  toTimestamp : Timestamp → Text → Except SqlError Timestamp

/-- A text as the collation orders it. -/
structure Collated (server : Server) where
  text : Text

theorem Collated.text_injective {server : Server} :
    Function.Injective (Collated.text : Collated server → Text) := by
  intro ⟨a⟩ ⟨b⟩ h
  exact congrArg Collated.mk h

instance {server : Server} : LinearOrder (Collated server) :=
  @LinearOrder.lift' _ _ server.collation Collated.text Collated.text_injective

/-- `btrim(text)`. -/
def btrim (text : Text) : Text :=
  String.ofList (((text.toList.dropWhile (· = ' ')).reverse.dropWhile (· = ' ')).reverse)

/-- `text like pattern`. A pattern that ends in its escape character is an error of the
server's; those made here end in `%`. -/
def like : List Char → List Char → Bool
  | [], text => text.isEmpty
  | '%' :: pattern, text => text.tails.any (like pattern)
  | '_' :: pattern, text => match text with
    | [] => false
    | _ :: text => like pattern text
  | ['\\'], _ => false
  | '\\' :: c :: pattern, text => match text with
    | [] => false
    | d :: text => d = c && like pattern text
  | c :: pattern, text => match text with
    | [] => false
    | d :: text => d = c && like pattern text

/-- `tags @> wanted`; a null is never found. -/
def contains (tags wanted : List (Option Text)) : Bool :=
  wanted.all fun tag => tag.isSome && tags.any fun other => other = tag

/-! ## Arguments -/

structure ListRecentArgs where
  filters : Option Jsonb := none
  limit : Option ℤ := some 25
  cursor : Option Text := none

structure SearchArgs where
  query : Option Text
  mode : Option Text := some "text"
  filters : Option Jsonb := none
  limit : Option ℤ := some 20
  cursor : Option Text := none

/-- `limit is null or limit < 1 or limit > bound`. -/
def limitRefused (limit : Option ℤ) (bound : ℤ) : Bool :=
  match limit with
  | none => true
  | some limit => limit < 1 || limit > bound

/-- The three checks of `filters`; what is not there passes them. -/
def filtersRefused (filters : Option Jsonb) (allowed : List Text) : Bool :=
  match filters with
  | none => false
  | some json =>
    json.typeof ≠ "object" || (json.objectKeys.any fun k => k ∉ allowed) ||
      (json.hasKey "tags" && match json.get "tags" with
        | none => false
        | some tags => tags.typeof ≠ "array" || tags.arrayElements.length > 5)

/-- `query is null or length(btrim(query)) < 1 or length(btrim(query)) > 512`. -/
def queryRefused : Option Text → Bool
  | none => true
  | some query => (btrim query).length < 1 || (btrim query).length > 512

/-- `mode not in ('text', 'semantic')`, which a null is not. -/
def modeRefused : Option Text → Bool
  | none => false
  | some mode => mode ∉ ["text", "semantic"]

/-! ## Conditions -/

/-- `coalesce(filters, '{}') ? key`. -/
def filtersHave (filters : Option Jsonb) (key : Text) : Bool :=
  filters.any fun json => json.hasKey key

/-- `not (.. ? 'tags') or m.tags @> array(select jsonb_array_elements_text(filters -> 'tags'))`. -/
def tagsMatch (filters : Option Jsonb) (m : Memory) : Truth :=
  some (!filtersHave filters "tags" || contains m.tags
    (((filters.bind fun json => json.get "tags").elim [] Jsonb.arrayElements).map Jsonb.toText))

/-- `not (.. ? key) or compare ((filters ->> key)::timestamptz)`. -/
def timeMatch (server : Server) (s : Session) (filters : Option Jsonb) (key : Text)
    (compare : Option Timestamp → Truth) : Except SqlError Truth :=
  if filtersHave filters key then
    match filters.bind fun json => json.getText key with
    | none => .ok (compare none)
    | some text => (server.toTimestamp s.now text).map fun time => compare (some time)
  else .ok (some true)

/-- `'%' || lower(btrim(query)) || '%'`. -/
def pattern (server : Server) (query : Text) : List Char :=
  ("%" ++ server.lower (btrim query) ++ "%").toList

def titleMatches (server : Server) (query : Text) (m : Memory) : Bool :=
  like (pattern server query) (server.lower m.title).toList

def contentMatches (server : Server) (query : Text) (m : Memory) : Bool :=
  like (pattern server query) (server.lower m.content).toList

def rank (server : Server) (query : Text) (m : Memory) : ℚ :=
  if titleMatches server query m then 1 else 3 / 4

/-- A numeric of two values, as it is written in JSON. -/
def rankJson (server : Server) (query : Text) (m : Memory) : Jsonb :=
  .number (if titleMatches server query m then "1.0" else "0.75")

def listRecentCondition (t : Tables) (s : Session) (filters : Option Jsonb) (m : Memory) : Truth :=
  (hasActiveCapability t s .read m.workspaceId).and (tagsMatch filters m)

def searchCondition (server : Server) (t : Tables) (s : Session) (query : Text)
    (filters : Option Jsonb) (m : Memory) : Except SqlError Truth := do
  let matched := (((hasActiveCapability t s .read m.workspaceId).and
    (hasActiveCapability t s .search m.workspaceId)).and
    (some (titleMatches server query m || contentMatches server query m))).and (tagsMatch filters m)
  let after ← matched.andThen <| timeMatch server s filters "createdAfter" fun time =>
    ge (some m.createdAt) time
  after.andThen <| timeMatch server s filters "createdBefore" fun time => ge time (some m.createdAt)

/-- `eligible` of `authorized_memory_list_recent_v1`. -/
def listRecentEligible (t : Tables) (s : Session) (filters : Option Jsonb) : List Memory :=
  filter (listRecentCondition t s filters) (t.visibleMemories s)

/-- `eligible` of `authorized_memory_search_v1`. -/
def searchEligible (server : Server) (t : Tables) (s : Session) (query : Text)
    (filters : Option Jsonb) : Except SqlError (List Memory) :=
  filterExcept (searchCondition server t s query filters) (t.visibleMemories s)

/-! ## Pages -/

/-- `aggregate_page`, before its rows are written as JSON. -/
structure Page where
  rows : List Memory
  hasMore : Bool
  nextToken : Option Text
deriving DecidableEq

def Page.nextCursor (page : Page) : Option Text := if page.hasMore then page.nextToken else none

variable {Key : Type} [LinearOrder Key]

/-- `page_plus_one`, `page` and `aggregate_page`, of the rows that a page may take. -/
def pageOf (key : Memory → Key) (token : Memory → Text) (limit : ℕ) (below : List Memory) : Page :=
  let page := Keyset.page key limit below
  { rows := Keyset.orderDesc key page
    hasMore := decide (limit < (Keyset.pagePlusOne key limit below).length)
    nextToken := (Keyset.orderAsc key page).head?.map token }

/-- `anchor`. -/
def anchors (token : Memory → Text) (eligible : List Memory) (cursor : Text) : List Memory :=
  filter (fun row => eq (some (token row)) (some cursor)) eligible

/-- The check that the cursor names an eligible row, and the page below that row. -/
def paginate (key : Memory → Key) (token : Memory → Text) (eligible : List Memory) (limit : ℕ)
    (cursor : Option Text) : Except SqlError Page :=
  match cursor with
  | none => .ok (pageOf key token limit eligible)
  | some cursor =>
    match anchors token eligible cursor with
    | [] => .error invalidCursor
    | [a] => .ok (pageOf key token limit (eligible.filter fun row => key row < key a))
    -- `(select .. from anchor)` is compared as one row
    | _ => .error moreThanOneRow

/-- `(created_at, memory_id)`. -/
def listRecentKey (server : Server) (m : Memory) : Timestamp ×ₗ Collated server :=
  toLex (m.createdAt, ⟨m.memoryId⟩)

/-- `(rank, created_at, memory_id)`. -/
def searchKey (server : Server) (query : Text) (m : Memory) : ℚ ×ₗ Timestamp ×ₗ Collated server :=
  toLex (rank server query m, toLex (m.createdAt, ⟨m.memoryId⟩))

def listRecentToken (server : Server) (m : Memory) : Text :=
  "cur_" ++ server.md5 (m.memoryId ++ "|" ++ server.timestampText m.createdAt)

def searchToken (server : Server) (query : Text) (m : Memory) : Text :=
  "cur_" ++ server.md5 (m.memoryId ++ "|" ++ server.timestampText m.createdAt ++ "|" ++ btrim query)

def listRecentPage (server : Server) (t : Tables) (s : Session) (args : ListRecentArgs) :
    Except SqlError Page := do
  if limitRefused args.limit 25 then throw invalidRequest
  if filtersRefused args.filters ["tags"] then throw invalidRequest
  paginate (listRecentKey server) (listRecentToken server) (listRecentEligible t s args.filters)
    (args.limit.getD 0).toNat args.cursor

def searchPage (server : Server) (t : Tables) (s : Session) (args : SearchArgs) :
    Except SqlError Page := do
  if queryRefused args.query then throw invalidRequest
  if modeRefused args.mode then throw invalidRequest
  if limitRefused args.limit 20 then throw invalidRequest
  if filtersRefused args.filters ["tags", "createdAfter", "createdBefore"] then throw invalidRequest
  let query := args.query.getD ""
  let eligible ← searchEligible server t s query args.filters
  paginate (searchKey server query) (searchToken server query) eligible
    (args.limit.getD 0).toNat args.cursor

/-! ## The functions -/

def memoryMembers (server : Server) (m : Memory) : List (Text × Jsonb) :=
  [("id", .string m.memoryId), ("title", .string m.title), ("content", .string m.content),
    ("createdAt", .string (server.timestampJson m.createdAt)),
    ("provenanceSummary", .string m.provenanceSummary)]

/-- `jsonb_build_object('rows', rows) || case when has_more then .. end`. -/
def Page.toJson (page : Page) (members : Memory → List (Text × Jsonb)) : Jsonb :=
  (Jsonb.buildObject [("rows", .array (page.rows.map fun m => .buildObject (members m)))]).concat
    (if page.hasMore then .buildObject [("nextCursor", page.nextToken.elim .null .string)]
      else .object [])

/-- `select .. from memories m where m.memory_id = id and .. limit 1`. -/
def getRecord (t : Tables) (s : Session) (id : Option Text) : Option Memory :=
  (filter (fun m => (eq (some m.memoryId) id).and
    (hasActiveCapability t s .read m.workspaceId)) (t.visibleMemories s)).head?

def authorizedMemoryGetV1 (server : Server) (t : Tables) (s : Session) (id : Option Text) : Jsonb :=
  .buildObject [("record", (getRecord t s id).elim .null fun m =>
    .buildObject (memoryMembers server m))]

def authorizedMemoryListRecentV1 (server : Server) (t : Tables) (s : Session)
    (args : ListRecentArgs) : Except SqlError Jsonb :=
  (listRecentPage server t s args).map fun page => page.toJson (memoryMembers server)

def authorizedMemorySearchV1 (server : Server) (t : Tables) (s : Session) (args : SearchArgs) :
    Except SqlError Jsonb :=
  (searchPage server t s args).map fun page => page.toJson fun m =>
    memoryMembers server m ++ [("rank", rankJson server (args.query.getD "") m)]

end MemoryRpc
