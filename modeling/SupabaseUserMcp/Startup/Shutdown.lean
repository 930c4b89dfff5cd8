import SupabaseUserMcp.Process.Machine
import SupabaseUserMcp.Startup.Completeness

/- How the process goes down. A process that is up has the listeners that its start has
   left, one for each signal, and one closing that they share; a signal that has lost its
   listener ends the process at once and is no step here. In every order of signals, errors
   of the transport and ends of the closing, the server is closed once, by the first. -/
namespace Startup

open Js
open Process (Ensures Exchange Runs execute execute_cons runs_ask runs_bind runs_done)

/-! ## The process that is up -/

/-- `close()`, once it is called. -/
inductive Closing where
  | pending
  | settled
  deriving DecidableEq

inductive Event where
  | signal (signal : Text)
  | closed
  | closeFailed
  | transportError
  deriving DecidableEq

structure Up where
  /-- The signals whose listener has not been called. -/
  listeners : List Text
  shutdown : Option Closing
  closes : ℕ
  stderr : List Text
  exitCode : Option ℕ

/-- `createIdempotentShutdown`: `shutdown ??= close()`. -/
def Up.createIdempotentShutdown (up : Up) : Up :=
  match up.shutdown with
  | some _ => up
  | none => { up with shutdown := some .pending, closes := up.closes + 1 }

def step (up : Up) : Event → Option Up
  | .signal signal =>
    if signal ∈ up.listeners then
      some { up with listeners := up.listeners.erase signal }.createIdempotentShutdown
    else none
  | .closed =>
    if up.shutdown = some .pending then some { up with shutdown := some .settled } else none
  | .closeFailed =>
    if up.shutdown = some .pending then
      some { up with
        shutdown := some .settled
        stderr := up.stderr ++ [stdioShutdownFailureMessage]
        exitCode := some 1 }
    else none
  | .transportError => some { up with stderr := up.stderr ++ [stdioTransportFailureMessage] }

def writtenText : Exchange Request Reply → Option Text
  | ⟨.stderr message, _⟩ => some message
  | _ => none

def listenedSignal : Exchange Request Reply → Option Text
  | ⟨.onceSignal signal, _⟩ => some signal
  | _ => none

/-- The process as its start has left it. -/
def Up.ofHistory (history : History) : Up where
  listeners := history.filterMap listenedSignal
  shutdown := none
  closes := 0
  stderr := history.filterMap writtenText
  exitCode := none

/-! ## What the events have done -/

def Event.taken : Event → Option Text
  | .signal name => some name
  | _ => none

def isSignal (event : Event) : Bool := event.taken.isSome

/-- What an event writes. -/
def Event.message : Event → Option Text
  | .closeFailed => some stdioShutdownFailureMessage
  | .transportError => some stdioTransportFailureMessage
  | _ => none

def isEnd : Event → Bool
  | .closed | .closeFailed => true
  | _ => false

/-- The events of a process, and what they have done to it. -/
structure Accounted (initial up : Up) (events : List Event) : Prop where
  closes : up.closes = if events.any isSignal then 1 else 0
  shutdown : up.shutdown = if events.any isSignal then
    some (if events.any isEnd then .settled else .pending) else none
  begun : events.any isEnd = true → events.any isSignal = true
  ends : events.countP isEnd ≤ 1
  exitCode : up.exitCode = if .closeFailed ∈ events then some 1 else none
  stderr : up.stderr = initial.stderr ++ events.filterMap Event.message
  listeners : (events.filterMap Event.taken ++ up.listeners).Perm initial.listeners

theorem accounted_nil (history : History) :
    Accounted (.ofHistory history) (.ofHistory history) [] where
  closes := rfl
  shutdown := rfl
  begun := fun h => h
  ends := Nat.zero_le _
  exitCode := rfl
  stderr := (List.append_nil _).symm
  listeners := .refl _

/-- A closing that is pending has been begun by a signal and has not ended. -/
theorem Accounted.of_pending {initial up : Up} {events : List Event}
    (h : Accounted initial up events) (hpending : up.shutdown = some .pending) :
    events.any isSignal = true ∧ events.any isEnd = false := by
  have hshutdown := h.shutdown
  rw [hpending] at hshutdown
  split at hshutdown
  · next hsignal =>
    refine ⟨hsignal, Bool.eq_false_iff.mpr fun hend => ?_⟩
    rw [if_pos hend] at hshutdown
    cases hshutdown
  · cases hshutdown

theorem any_snoc {α : Type} (p : α → Bool) (l : List α) (a : α) :
    (l ++ [a]).any p = (l.any p || p a) := by
  rw [List.any_append, List.any_cons, List.any_nil, Bool.or_false]

section Steps

variable {initial up up' : Up} {events : List Event}

theorem Accounted.signal {name : Text} (h : Accounted initial up events)
    (hstep : step up (.signal name) = some up') :
    Accounted initial up' (events ++ [.signal name]) := by
  obtain ⟨hlistening, hup⟩ := Option.ite_none_right_eq_some.mp hstep
  obtain rfl := Option.some.inj hup
  have hsignal : (events ++ [Event.signal name]).any isSignal = true := by
    rw [any_snoc]
    exact Bool.or_true _
  have hends : (events ++ [Event.signal name]).any isEnd = events.any isEnd := by
    rw [any_snoc]
    exact Bool.or_false _
  have hlisteners : ((events ++ [Event.signal name]).filterMap Event.taken ++
      up.listeners.erase name).Perm initial.listeners := by
    rw [List.filterMap_append, List.append_assoc]
    exact (List.Perm.append_left _ (List.perm_cons_erase hlistening).symm).trans h.listeners
  have hcount : (events ++ [Event.signal name]).countP isEnd ≤ 1 := by
    rw [List.countP_append]
    exact h.ends
  have hstderr : up.stderr = initial.stderr ++
      (events ++ [Event.signal name]).filterMap Event.message := by
    rw [List.filterMap_append]
    exact h.stderr.trans (congrArg _ (List.append_nil _).symm)
  have hexit : up.exitCode =
      if .closeFailed ∈ events ++ [Event.signal name] then some 1 else none := by
    simpa using h.exitCode
  rw [Up.createIdempotentShutdown]
  split
  · next closing hshutdown =>
    have hshutdown : up.shutdown = some closing := hshutdown
    have hbegun : events.any isSignal = true := by
      by_contra hnone
      rw [h.shutdown, if_neg hnone] at hshutdown
      cases hshutdown
    refine ⟨?_, ?_, fun _ => hsignal, hcount, hexit, hstderr, hlisteners⟩
    · rw [if_pos hsignal]
      exact h.closes.trans (if_pos hbegun)
    · rw [if_pos hsignal, hends]
      exact h.shutdown.trans (if_pos hbegun)
  · next hshutdown =>
    have hshutdown : up.shutdown = none := hshutdown
    have hnone : ¬ events.any isSignal = true := by
      intro hbegun
      rw [h.shutdown, if_pos hbegun] at hshutdown
      cases hshutdown
    refine ⟨?_, ?_, fun _ => hsignal, hcount, hexit, hstderr, hlisteners⟩
    · rw [if_pos hsignal]
      exact congrArg (· + 1) (h.closes.trans (if_neg hnone))
    · rw [if_pos hsignal, hends, if_neg fun hend => hnone (h.begun hend)]

/-- What any end of the closing leaves. -/
theorem Accounted.ended {event : Event} (h : Accounted initial up events)
    (hend : isEnd event = true) (hpending : up.shutdown = some .pending)
    (hcloses : up'.closes = up.closes) (hlisteners : up'.listeners = up.listeners)
    (hshutdown : up'.shutdown = some .settled)
    (hexit : up'.exitCode = if event = .closeFailed then some 1 else up.exitCode)
    (hstderr : up'.stderr = up.stderr ++ event.message.toList) :
    Accounted initial up' (events ++ [event]) := by
  obtain ⟨hbegun, hnone⟩ := h.of_pending hpending
  have htaken : event.taken = none := by
    cases event with
    | signal name => cases hend
    | _ => rfl
  have hsignal : (events ++ [event]).any isSignal = true := by rw [any_snoc, hbegun, Bool.true_or]
  refine ⟨?_, ?_, fun _ => hsignal, ?_, ?_, ?_, ?_⟩
  · rw [if_pos hsignal, hcloses]
    exact h.closes.trans (if_pos hbegun)
  · rw [if_pos hsignal, any_snoc, hend, Bool.or_true]
    exact hshutdown
  · rw [List.countP_append, List.countP_eq_zero.mpr (by simpa using hnone)]
    exact Nat.zero_add _ ▸ List.countP_le_length
  · rw [hexit, h.exitCode]
    by_cases hfailed : event = .closeFailed
    · rw [if_pos hfailed, if_pos (List.mem_append_right _ (List.mem_singleton.mpr hfailed.symm))]
    · rw [if_neg hfailed]
      exact if_congr (by simp [Ne.symm hfailed]) rfl rfl
  · rw [hstderr, h.stderr, List.filterMap_append, List.append_assoc]
    cases event with
    | _ => rfl
  · rw [hlisteners, List.filterMap_append, List.filterMap_cons_none htaken, List.filterMap_nil,
      List.append_nil]
    exact h.listeners

theorem Accounted.transportError (h : Accounted initial up events)
    (hstep : step up .transportError = some up') :
    Accounted initial up' (events ++ [.transportError]) := by
  obtain rfl := Option.some.inj hstep
  have hsignal : (events ++ [Event.transportError]).any isSignal = events.any isSignal := by
    rw [any_snoc]
    exact Bool.or_false _
  have hends : (events ++ [Event.transportError]).any isEnd = events.any isEnd := by
    rw [any_snoc]
    exact Bool.or_false _
  refine ⟨?_, ?_, ?_, ?_, ?_, ?_, ?_⟩
  · rw [hsignal]
    exact h.closes
  · rw [hsignal, hends]
    exact h.shutdown
  · rw [hsignal, hends]
    exact h.begun
  · rw [List.countP_append]
    exact h.ends
  · simpa using h.exitCode
  · rw [List.filterMap_append, ← List.append_assoc, ← h.stderr]
    rfl
  · rw [List.filterMap_append, List.append_assoc]
    exact h.listeners

theorem Accounted.step {event : Event} (h : Accounted initial up events)
    (hstep : step up event = some up') : Accounted initial up' (events ++ [event]) := by
  cases event with
  | signal name => exact h.signal hstep
  | closed =>
    obtain ⟨hpending, hup⟩ := Option.ite_none_right_eq_some.mp hstep
    obtain rfl := Option.some.inj hup
    exact h.ended rfl hpending rfl rfl rfl rfl (List.append_nil _).symm
  | closeFailed =>
    obtain ⟨hpending, hup⟩ := Option.ite_none_right_eq_some.mp hstep
    obtain rfl := Option.some.inj hup
    exact h.ended rfl hpending rfl rfl rfl rfl rfl
  | transportError => exact h.transportError hstep

theorem accounted_execute {rest : List Event} (h : Accounted initial up events)
    (hexecute : execute Startup.step up rest = some up') :
    Accounted initial up' (events ++ rest) := by
  induction rest generalizing up events with
  | nil =>
    cases hexecute
    rw [List.append_nil]
    exact h
  | cons event rest ih =>
    obtain ⟨next, hstep, hrest⟩ := execute_cons.mp hexecute
    have hnext := ih (h.step hstep) hrest
    rw [List.append_assoc] at hnext
    exact hnext

end Steps

/-! ## From the start to the end -/

/-- Before the report nothing is written and no signal is listened to. -/
theorem filterMap_of_within {history : History} {kind : Exchange Request Reply → Option Text}
    (hkind : ∀ x, kind x ≠ none → 5 < x.request.stage) (h : Within history 5) :
    history.filterMap kind = [] := by
  refine List.filterMap_eq_nil_iff.mpr fun x hx => ?_
  by_contra hsome
  exact absurd (h x hx) (Nat.not_le.mpr (hkind x hsome))

theorem not_runs_failure {message : Text} {trace : History} :
    ¬ Runs (ask (.stderr message) >>= fun _ => ask (.setExitCode 1) >>= fun _ => pure false)
      trace true := by
  intro hrun
  obtain ⟨_, _, -, hrun⟩ := runs_ask.mp hrun
  obtain ⟨_, _, -, hrun⟩ := runs_ask.mp hrun
  cases (runs_done.mp hrun).2

/-- What a start that succeeds leaves: two listeners and one line. -/
theorem ofHistory_of_runs {parseUrl : Text → Option ParsedUrl} {host : Host} {env : Environment}
    {trace : History} (hrun : Runs (runReadOnlyStdioCli parseUrl host env) trace true) :
    Up.ofHistory trace = ⟨[text "SIGINT", text "SIGTERM"], none, 0, [stdioReadyMessage], none⟩ := by
  rw [runReadOnlyStdioCli] at hrun
  split at hrun
  · exact absurd hrun not_runs_failure
  obtain ⟨first, result, rest, rfl, hstart, hreport⟩ := runs_bind.mp hrun
  have hends := (keeps_startReadOnlyStdioFromEnvironment parseUrl host env).runs hstart
  have hwithin : Within first 5 := hends.1.past.within
  have hsilent : first.filterMap writtenText = [] := by
    refine filterMap_of_within (fun x hx => ?_) hwithin
    obtain ⟨request, reply⟩ := x
    cases request with
    | stderr message => exact Nat.lt_succ_self 5
    | _ => exact absurd rfl hx
  have hdeaf : first.filterMap listenedSignal = [] := by
    refine filterMap_of_within (fun x hx => ?_) hwithin
    obtain ⟨request, reply⟩ := x
    cases request with
    | onceSignal signal => exact Nat.lt_add_of_pos_right Nat.zero_lt_two
    | _ => exact absurd rfl hx
  cases result with
  | error e => exact absurd hreport not_runs_failure
  | ok server =>
    obtain ⟨_, _, rfl, hready⟩ := runs_ask.mp hreport
    obtain ⟨_, _, rfl, hsigint⟩ := runs_ask.mp hready
    obtain ⟨_, _, rfl, hsigterm⟩ := runs_ask.mp hsigint
    obtain ⟨rfl, -⟩ := runs_done.mp hsigterm
    rw [Up.ofHistory, List.filterMap_append, List.filterMap_append, hsilent, hdeaf]
    rfl

/-- In every order of signals, transport errors and ends of the closing after a start: the
server is closed once if a signal came and not otherwise, the closing ends at most once and
only after it began, the exit code is set if and only if the closing failed, and no listener
is called twice. -/
theorem runReadOnlyStdioCli_closes_once (parseUrl : Text → Option ParsedUrl) (host : Host)
    (env : Environment) :
    Ensures (runReadOnlyStdioCli parseUrl host env) fun trace up => up = true →
      ∀ events final, execute step (.ofHistory trace) events = some final →
        Accounted ⟨[text "SIGINT", text "SIGTERM"], none, 0, [stdioReadyMessage], none⟩ final
          events := by
  intro trace up hrun hup events final hexecute
  subst hup
  rw [← ofHistory_of_runs hrun]
  exact accounted_execute (accounted_nil trace) hexecute

/-- An error of the transport, both signals and a closing that fails. -/
def labEnding : List Event :=
  [.transportError, .signal (text "SIGTERM"), .signal (text "SIGINT"), .closeFailed]

def labDown : Up where
  listeners := []
  shutdown := some .settled
  closes := 1
  stderr := [stdioReadyMessage, stdioTransportFailureMessage, stdioShutdownFailureMessage]
  exitCode := some 1

theorem runReadOnlyStdioCli_closes_once_lab :
    ∃ trace, Runs (runReadOnlyStdioCli labUrl labLoader.host labEnvironment) trace true ∧
      execute step (.ofHistory trace) labEnding = some labDown ∧
      Accounted ⟨[text "SIGINT", text "SIGTERM"], none, 0, [stdioReadyMessage], none⟩ labDown
        labEnding := by
  obtain ⟨trace, hrun⟩ := exists_served_lab
  have hexecute : execute step (.ofHistory trace) labEnding = some labDown := by
    rw [ofHistory_of_runs hrun]
    rfl
  exact ⟨trace, hrun, hexecute, runReadOnlyStdioCli_closes_once labUrl labLoader.host
    labEnvironment trace true hrun rfl labEnding labDown hexecute⟩

end Startup
