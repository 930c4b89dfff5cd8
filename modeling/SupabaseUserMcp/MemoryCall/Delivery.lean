import SupabaseUserMcp.MemoryCall.Deadline

/- A response that arrives in full. In whatever pieces its body is read, and whatever is
   aborted meanwhile, the client's promise settles with what it receives of the whole
   body. -/
namespace MemoryCall

open Js ReadTools FixedClient Governor
open Process (Along execute invariant_along)

section Delivery

variable {platform : Platform} {governed : Governed platform}

/-- The upstream does its part in delivering a response and its body. -/
def Delivers (response : Response) (body : Bytes) (s : Execution governed.read) : Label → Prop
  | .upstream event =>
    match s.phase, event with
    | .fetching, .fetched result => result = .ok response
    | .reading before, .read (.ok (some chunk)) => before ++ chunk <+: body
    | .reading before, .read (.ok none) => before = body
    | .reading _, .read (.error _) => False
    | .cancelling, .cancelled result => result = .ok ()
    | _, _ => True
  | _ => True

/-- What has become of the body. -/
def Arrives (governed : Governed platform) (response : Response) (body : Bytes) :
    Phase governed.read → Prop
  | .fetching => True
  | .reading before => governed.client.refusal response = none ∧ before <+: body ∧
      before.length ≤ governed.client.maxResponseBytes
  | .cancelling => governed.client.refusal response = none ∧
      governed.client.maxResponseBytes < body.length
  | .requested result => result = governed.client.receive response body
  | .answered result => result = (governed.client.receive response body).bind
      (parsePayload governed.read governed.input)
  | .settled output => ∃ aborted, output = settle governed aborted
      ((governed.client.receive response body).bind (parsePayload governed.read governed.input))
  | .returned _ => True

theorem receive_of_le {response : Response} {body : Bytes}
    (hrefusal : governed.client.refusal response = none)
    (h : body.length ≤ governed.client.maxResponseBytes) :
    governed.client.receive response body = parseBody governed body := by
  rw [Client.receive, hrefusal]
  exact if_neg (Nat.not_lt.mpr h)

/-- A response is refused by its head, or its body is read from the start. -/
theorem arrives_fetched {response : Response} {body : Bytes} {aborted : Bool}
    {next : Phase governed.read} (hbody : response.hasBody = false → body = [])
    (hnext : proceed governed aborted .fetching (.fetched (.ok response)) = some next) :
    Arrives governed response body next := by
  simp only [proceed] at hnext
  cases hrefusal : governed.client.refusal response with
  | some code =>
    rw [hrefusal] at hnext
    cases hnext
    show _ = _
    rw [Client.receive, hrefusal]
  | none =>
    rw [hrefusal] at hnext
    cases hnext
    cases hhas : response.hasBody with
    | true =>
      rw [if_pos rfl]
      exact ⟨hrefusal, List.nil_prefix, Nat.zero_le _⟩
    | false =>
      rw [hbody hhas, if_neg Bool.false_ne_true]
      exact (receive_of_le hrefusal (Nat.zero_le _)).symm

/-- A piece is kept, or it goes over the bound and the whole body does. -/
theorem arrives_chunk {response : Response} {body before chunk : Bytes}
    (hrefusal : governed.client.refusal response = none) (hbegins : before ++ chunk <+: body) :
    Arrives governed response body
      (if governed.client.maxResponseBytes < before.length + chunk.length then .cancelling
        else .reading (before ++ chunk)) := by
  split
  · next hlarge =>
    refine ⟨hrefusal, hlarge.trans_le ?_⟩
    rw [← List.length_append]
    exact hbegins.length_le
  · next hsmall =>
    refine ⟨hrefusal, hbegins, ?_⟩
    rw [List.length_append]
    exact Nat.not_lt.mp hsmall

theorem arrives_proceed {response : Response} {body : Bytes} {s : Execution governed.read}
    {next : Phase governed.read} {event : Upstream} (hbody : response.hasBody = false → body = [])
    (h : Arrives governed response body s.phase)
    (hmeets : Delivers response body s (.upstream event))
    (hnext : proceed governed s.clientAborted s.phase event = some next) :
    Arrives governed response body next := by
  -- what the upstream may send goes by the phase, and what it sends out of turn is no step
  cases hphase : s.phase with
  | fetching =>
    simp only [Delivers, hphase] at hmeets
    rw [hphase] at hnext
    cases event with
    | fetched result =>
      obtain rfl : result = .ok response := hmeets
      exact arrives_fetched hbody hnext
    | read _ => cases hnext
    | cancelled _ => cases hnext
  | reading before =>
    simp only [Delivers, hphase] at hmeets
    rw [hphase] at hnext h
    obtain ⟨hrefusal, hbefore, hlength⟩ := h
    cases event with
    | read result =>
      cases result with
      | error thrown => exact hmeets.elim
      | ok read =>
        cases read with
        | none =>
          cases hnext
          obtain rfl : before = body := hmeets
          exact (receive_of_le hrefusal hlength).symm
        | some chunk =>
          cases hnext
          exact arrives_chunk hrefusal hmeets
    | fetched _ => cases hnext
    | cancelled _ => cases hnext
  | cancelling =>
    simp only [Delivers, hphase] at hmeets
    rw [hphase] at hnext h
    obtain ⟨hrefusal, hlarge⟩ := h
    cases event with
    | cancelled result =>
      obtain rfl : result = .ok () := hmeets
      cases hnext
      show _ = _
      rw [Client.receive, hrefusal]
      exact (if_pos hlarge).symm
    | fetched _ => cases hnext
    | read _ => cases hnext
  | _ =>
    rw [hphase] at hnext
    cases event <;> cases hnext

theorem arrives_step {response : Response} {body : Bytes} {s t : Execution governed.read}
    {label : Label} (hbody : response.hasBody = false → body = [])
    (h : s.input = governed.input ∧ Arrives governed response body s.phase)
    (hmeets : Delivers response body s label) (hstep : step governed s label = some t) :
    t.input = governed.input ∧ Arrives governed response body t.phase := by
  obtain ⟨hinput, harrives⟩ := h
  cases label with
  | deadline =>
    cases hstep
    exact ⟨hinput, harrives⟩
  | toolTimer =>
    cases hstep
    exact ⟨hinput, harrives⟩
  | clientTimer =>
    cases hstep
    exact ⟨hinput, harrives⟩
  | upstream event =>
    obtain ⟨phase, hphase, rfl⟩ := Option.map_eq_some_iff.mp hstep
    exact ⟨hinput, arrives_proceed hbody harrives hmeets hphase⟩
  | resume =>
    rw [step] at hstep
    cases hphase : s.phase with
    | requested result =>
      rw [hphase] at hstep harrives
      cases hstep
      obtain rfl : result = _ := harrives
      refine ⟨hinput, ?_⟩
      rw [hinput]
      rfl
    | answered result =>
      rw [hphase] at hstep harrives
      cases hstep
      obtain rfl : result = _ := harrives
      exact ⟨hinput, s.toolAborted, rfl⟩
    | _ =>
      rw [hphase] at hstep
      cases hstep
  | finish now =>
    rw [step] at hstep
    cases hphase : s.phase with
    | settled output =>
      rw [hphase] at hstep
      cases hstep
      exact ⟨hinput, trivial⟩
    | _ =>
      rw [hphase] at hstep
      cases hstep

/-- However a response is delivered, the client's method comes to what it receives. -/
theorem arrives_of_execute {response : Response} {body : Bytes} {aborted : Bool}
    {s : Execution governed.read} {labels : List Label}
    (hbody : response.hasBody = false → body = [])
    (hdelivers : Along (step governed) (Delivers response body) (start governed aborted) labels)
    (h : execute (step governed) (start governed aborted) labels = some s) :
    Arrives governed response body s.phase := by
  have hstart : start governed aborted =
      ⟨.fetching, aborted, aborted, aborted, governed.input, [], aborted⟩ := by
    simp only [start, reparse_input]
  -- the input is part of the invariant: `resume` parses by the input of the state
  have hinvariant := @invariant_along _ _ (step governed) (Delivers response body)
    (fun s => s.input = governed.input ∧ Arrives governed response body s.phase)
    (fun hs hmeets hstep => arrives_step hbody hs hmeets hstep) _ _ _ (by
      rw [hstart]
      exact ⟨rfl, trivial⟩) hdelivers h
  exact hinvariant.2

end Delivery

end MemoryCall
