import SupabaseUserMcp.Process.Program

/- What a program may ask for, by what was exchanged before. A rule says of a history and a
   request whether the request may be made there; a program keeps a rule after a history
   when on every run each of its requests may be made where it is made. A sequence has a
   rule of its own, and what is kept is so of every run. -/
namespace Process

variable {Q : Type} {R : Q → Type} {α β : Type}

/-- Every request of every run is allowed after what came before it, and the result of
every run is right after all of it. -/
def Keeps (allowed : List (Exchange Q R) → Q → Prop) (ends : List (Exchange Q R) → α → Prop) :
    List (Exchange Q R) → Program Q R α → Prop
  | history, .done a => ends history a
  | history, .ask request next => allowed history request ∧
      ∀ reply, Keeps allowed ends (history ++ [⟨request, reply⟩]) (next reply)

section Rules

variable {allowed : List (Exchange Q R) → Q → Prop} {ends : List (Exchange Q R) → α → Prop}

/-- A sequence keeps a rule that its first part keeps, and its second after it. -/
theorem keeps_bind {p : Program Q R β} {f : β → Program Q R α} {history : List (Exchange Q R)}
    (h : Keeps allowed (fun history b => Keeps allowed ends history (f b)) history p) :
    Keeps allowed ends history (p >>= f) := by
  induction p generalizing history with
  | done b => exact h
  | ask request next ih => exact ⟨h.1, fun reply => ih reply (h.2 reply)⟩

theorem Keeps.mono {ends' : List (Exchange Q R) → α → Prop} {p : Program Q R α}
    (himp : ∀ history a, ends history a → ends' history a) {history : List (Exchange Q R)}
    (h : Keeps allowed ends history p) : Keeps allowed ends' history p := by
  induction p generalizing history with
  | done a => exact himp _ _ h
  | ask request next ih => exact ⟨h.1, fun reply => ih reply (h.2 reply)⟩

theorem Keeps.imp {allowed' : List (Exchange Q R) → Q → Prop} {p : Program Q R α}
    (himp : ∀ history request, allowed history request → allowed' history request)
    {history : List (Exchange Q R)} (h : Keeps allowed ends history p) :
    Keeps allowed' ends history p := by
  induction p generalizing history with
  | done a => exact h
  | ask request next ih => exact ⟨himp _ _ h.1, fun reply => ih reply (h.2 reply)⟩

/-- Only requests of a kind are made, where the rule allows no others. -/
theorem Keeps.requests {kind : Q → Prop} {p : Program Q R α}
    (hkind : ∀ history request, allowed history request → kind request)
    {history : List (Exchange Q R)} (hhistory : ∀ x ∈ history, kind x.request)
    (h : Keeps allowed ends history p) :
    Keeps (fun history request => allowed history request ∧ ∀ x ∈ history, kind x.request)
      (fun history a => ends history a ∧ ∀ x ∈ history, kind x.request) history p := by
  induction p generalizing history with
  | done a => exact ⟨h, hhistory⟩
  | ask request next ih =>
    refine ⟨⟨h.1, hhistory⟩, fun reply => ih reply ?_ (h.2 reply)⟩
    intro x hx
    obtain hx | hx := List.mem_append.mp hx
    · exact hhistory x hx
    · rw [List.mem_singleton.mp hx]
      exact hkind _ _ h.1

/-- What a rule says of a run: of each of its requests, and of its result. -/
theorem Keeps.runs {p : Program Q R α} {history trace : List (Exchange Q R)} {a : α}
    (h : Keeps allowed ends history p) (hrun : Runs p trace a) : ends (history ++ trace) a ∧
      ∀ before x after, trace = before ++ x :: after → allowed (history ++ before) x.request := by
  induction hrun generalizing history with
  | done a => exact ⟨by rw [List.append_nil]; exact h, fun _ _ _ hnil => by simp at hnil⟩
  | @ask request next reply trace a rest ih =>
    obtain ⟨hends, hall⟩ := ih (h.2 reply)
    rw [List.append_assoc, List.singleton_append] at hends
    refine ⟨hends, fun before x after hsplit => ?_⟩
    cases before with
    | nil =>
      obtain ⟨rfl, -⟩ := List.cons.inj hsplit
      rw [List.append_nil]
      exact h.1
    | cons first before =>
      obtain ⟨rfl, hrest⟩ := List.cons.inj hsplit
      have hallowed := hall before x after hrest
      rw [List.append_assoc, List.singleton_append] at hallowed
      exact hallowed

theorem ensures_of_keeps {p : Program Q R α} (h : Keeps allowed ends [] p) :
    Ensures p fun trace a => ends trace a ∧
      ∀ before x after, trace = before ++ x :: after → allowed before x.request :=
  fun _ _ hrun => h.runs hrun

end Rules

end Process
