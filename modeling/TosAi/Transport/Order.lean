/-
  The order of an adapter's calls.

  A purchase is claimed once, its work runs once, on evidence for the claim, and its escrow is
  settled once, with that evidence and an outcome of that work; so it is wherever the process
  dies.  With an error no settlement has succeeded, and with a result it has, if there is a
  settler.
-/
import TosAi.Transport.Program

set_option autoImplicit false

namespace TosAi.Transport

open Foundation
open SoftwareWork (Outcome Descriptor)

/-- The calls to the gate, the runner and the settler, with their answers. -/
abbrev Trace := List (Σ o : Op, o.Res)

def Trace.after (t : Trace) : (o : Op) → o.Res → Trace
  | .url _, _ => t
  | .now, _ => t
  | o, answer => t ++ [⟨o, answer⟩]

/-- Any answer may come. -/
def notes (o : Op) (t : Trace) (answer : o.Res) (t' : Trace) : Prop := t' = t.after o answer

def isSettlement : (Σ o : Op, o.Res) → Bool
  | ⟨.settle _ _, settled⟩ => settled
  | _ => false

/-- What an adapter asks of the evidence for a claim and of the outcome of its work. -/
structure Terms where
  work : SoftwareWork.Request
  claim : GateRequest
  bound : Evidence → Prop
  own : Outcome → Prop

/-- The calls of a purchase whose work ran. -/
def Terms.ran (T : Terms) (evidence : Evidence) (answer : Option Outcome) : Trace :=
  [⟨.claimExecution T.claim, some evidence⟩, ⟨.execute T.work, answer⟩]

section

variable {α β : Type} {S : Setup} {T : Terms} {evidence : Evidence} {outcome : Outcome}

/-- The calls for one purchase, as far as they go. -/
inductive Purchase (T : Terms) : Trace → Prop where
  | idle : Purchase T []
  | claimed (answer : Option Evidence) : Purchase T [⟨.claimExecution T.claim, answer⟩]
  | ran {evidence : Evidence} (hbound : T.bound evidence) (answer : Option Outcome) :
    Purchase T (T.ran evidence answer)
  | settled {evidence : Evidence} {outcome : Outcome} (hbound : T.bound evidence)
    (hown : T.own outcome) (answer : Bool) :
    Purchase T (T.ran evidence (some outcome) ++ [⟨.settle evidence outcome, answer⟩])

/-- How a purchase ends: with a delivery after all the calls, or with word of failed work. -/
def Ending (settles : Bool) (delivers : Evidence → Outcome → α → Prop) (fails : α → Prop)
    (T : Terms) (a : α) (t : Trace) : Prop :=
  ∃ evidence, T.bound evidence ∧ ((t = T.ran evidence none ∧ fails a) ∨
    ∃ outcome, T.own outcome ∧ delivers evidence outcome a ∧ t = T.ran evidence (some outcome) ++
      if settles then [⟨.settle evidence outcome, true⟩] else [])

/-- The order holds at every point of the body, and an error means that nothing was settled. -/
def Orderly (terms : Terms → Prop) (ends : Terms → α → Trace → Prop) (body : Adapting α) : Prop :=
  Survives notes (fun t => t = [] ∨ ∃ T, terms T ∧ Purchase T t) body []
    (fun a t => ∃ T, terms T ∧ ends T a t) fun _ t => t.any isSettlement = false

/-- The same of what is left of a body for one purchase. -/
abbrev Proceeds (T : Terms) (body : Adapting α) (t : Trace) (Q : α → Trace → Prop) : Prop :=
  Survives notes (Purchase T) body t Q fun _ t => t.any isSettlement = false

/-- Before the request is taken apart nothing is called. -/
theorem orderly {terms : Terms → Prop} {ends : Terms → β → Trace → Prop} {decoded : Except Err α}
    {claimed : α → Adapting β}
    (h : ∀ a, decoded = .ok a → ∃ T, terms T ∧ Proceeds T (claimed a) [] (ends T)) :
    Orderly terms ends (Body.result decoded >>= claimed) := by
  cases decoded with
  | error e => exact ⟨.inl rfl, rfl⟩
  | ok a =>
    obtain ⟨T, hT, hproceeds⟩ := h a rfl
    exact hproceeds.mono (fun t ht => .inr ⟨T, hT, ht⟩) (fun _ _ ht => ⟨T, hT, ht⟩) fun _ _ h => h

/-! ## One step after another -/

variable {t : Trace} {Q : β → Trace → Prop} {next : α → Adapting β}

theorem Proceeds.call {o : Op} {next : o.Res → Adapting β} (hpart : Purchase T t)
    (h : ∀ answer, Proceeds T (next answer) (t.after o answer) Q) :
    Proceeds T (perform o >>= next) t Q := by
  refine ⟨hpart, ?_⟩
  rintro answer _ rfl
  exact h answer

/-- A part without such calls. -/
theorem Proceeds.still {P : α → Prop} {body : Adapting α}
    (hbody : Proceeds T body t fun a t' => t' = t ∧ P a) (h : ∀ a, P a → Proceeds T (next a) t Q) :
    Proceeds T (body >>= next) t Q := by
  refine .bind hbody ?_
  rintro a _ - ⟨rfl, ha⟩
  exact h a ha

/-- The settlement is the last call. -/
theorem Proceeds.settle {a : α} {delivers : Evidence → Outcome → α → Prop} {fails : α → Prop}
    (hbound : T.bound evidence) (hown : T.own outcome) (ha : delivers evidence outcome a) :
    Proceeds T (settleWith S evidence outcome >>= fun _ => pure a)
      (T.ran evidence (some outcome)) (Ending S.settles delivers fails T) := by
  rw [settleWith]
  cases S.settles with
  | false => exact ⟨.ran hbound _, evidence, hbound, .inr ⟨outcome, hown, ha, rfl⟩⟩
  | true =>
    refine ⟨.ran hbound _, ?_⟩
    rintro (_ | _) _ rfl
    · exact ⟨.settled hbound hown _, rfl⟩
    · exact ⟨.settled hbound hown _, evidence, hbound, .inr ⟨outcome, hown, ha, rfl⟩⟩

variable (hpart : Purchase T t) (hfree : t.any isSettlement = false)
include hpart hfree

theorem Proceeds.result {value : Except Err α} (h : ∀ a, value = .ok a → Proceeds T (next a) t Q) :
    Proceeds T (Body.result value >>= next) t Q := by
  cases value with
  | error e => exact ⟨hpart, hfree⟩
  | ok a => exact h a rfl

theorem Proceeds.orFail {value : Option α} {message : String}
    (h : ∀ a, value = some a → Proceeds T (next a) t Q) :
    Proceeds T (orFail value message >>= next) t Q := by
  cases value with
  | none => exact ⟨hpart, hfree⟩
  | some a => exact h a rfl

theorem Proceeds.ensure {condition : Bool} {err : Err} {next : Unit → Adapting β}
    (h : condition = true → Proceeds T (next ()) t Q) :
    Proceeds T (Body.ensure condition err >>= next) t Q := by
  cases condition with
  | false => exact ⟨hpart, hfree⟩
  | true => exact h rfl

theorem Proceeds.locate {d : Descriptor} {message : String} {next : Json.Bytes → Adapting β}
    (h : ∀ url, S.urlValid url = true → Proceeds T (next url) t Q) :
    Proceeds T (locate S d message >>= next) t Q := by
  refine .still (.call hpart fun _ => .orFail hpart hfree fun url _ => ?_) h
  exact .ensure hpart hfree fun hvalid => ⟨hpart, rfl, hvalid⟩

end

/-! ## The adapters -/

variable (S : Setup) (work : SoftwareWork.Request) (claim : GateRequest)

def A2A.terms : Terms where
  work := work
  claim := claim
  bound evidence := validateEvidence S.unicode evidence claim = .ok ()
  own outcome := outcomeValid S.unicode outcome work

def MCP.terms : Terms :=
  { A2A.terms S work claim with bound := (validEvidence S.unicode · claim) }

def AgentPacket.terms (packet : Packet) : Terms where
  work := work
  claim := claim
  bound v := v.quoteCommitment == claim.quoteCommitment && v.escrowAddress == claim.escrowAddress &&
    v.capabilityID == packet.capabilityID
  own v := v.quoteCommitment == work.quoteCommitment && v.executionID == work.executionID &&
    v.inputDigest == work.inputDigest && v.sourceDigest == work.sourceDigest

/-- **The order of the calls of `a2aadapter`.**  Only failed work has a failed task. -/
theorem a2a_calls_in_order (request : Option A2A.SendMessageRequest) :
    Orderly (fun T => ∃ work claim message, T = A2A.terms S work claim ∧
        A2A.decodeRequest S.unicode S.hash request = .ok (work, claim, message))
      (fun T => Ending S.settles
        (fun evidence outcome task => task.status.state = .completed ∧ ∃ url url',
          S.urlValid url = true ∧ S.urlValid url' = true ∧ task.artifacts =
            [⟨A2A.artifactID S.hash T.work outcome, A2A.resultBinding evidence outcome url url'⟩])
        (fun task => task.status.state = .failed ∧ task.artifacts = []) T)
      (A2A.execute S request) := by
  refine orderly ?_
  rintro ⟨work, claim, message⟩ hdecoded
  refine ⟨_, ⟨work, claim, message, rfl, hdecoded⟩, ?_⟩
  refine .call .idle fun answer => .orFail (.claimed _) rfl ?_
  rintro evidence rfl
  refine .result (.claimed _) rfl fun _ hbound => ?_
  refine .call (.claimed _) fun now => .call (.claimed _) fun answer => ?_
  refine .call (.ran hbound _) fun completed => ?_
  cases answer with
  | none => exact ⟨.ran hbound _, evidence, hbound, .inl ⟨rfl, rfl, rfl⟩⟩
  | some outcome =>
    refine .ensure (.ran hbound _) rfl fun hown => ?_
    refine .locate (.ran hbound _) rfl fun url hurl => ?_
    refine .locate (.ran hbound _) rfl fun url' hurl' => ?_
    exact .settle hbound hown ⟨rfl, url, url', hurl, hurl', rfl⟩

/-- **The order of the calls of `mcpadapter`.** -/
theorem mcp_calls_in_order (input : MCP.Input) :
    Orderly (fun T => ∃ work claim, T = MCP.terms S work claim ∧
        MCP.decodeInput S.unicode S.hash input = .ok (work, claim))
      (Ending S.settles
        (fun evidence outcome output => ∃ url url', S.urlValid url = true ∧
          S.urlValid url' = true ∧ output = MCP.newOutput evidence outcome url url')
        (fun _ => False))
      (MCP.call S input) := by
  refine orderly ?_
  rintro ⟨work, claim⟩ hdecoded
  refine ⟨_, ⟨work, claim, rfl, hdecoded⟩, ?_⟩
  refine .call .idle fun answer => .orFail (.claimed _) rfl ?_
  rintro evidence rfl
  refine .ensure (.claimed _) rfl fun hbound => ?_
  refine .call (.claimed _) fun answer => .orFail (.ran hbound _) rfl ?_
  rintro outcome rfl
  refine .ensure (.ran hbound _) rfl fun hown => ?_
  refine .locate (.ran hbound _) rfl fun url hurl => ?_
  refine .locate (.ran hbound _) rfl fun url' hurl' => ?_
  exact .settle hbound hown ⟨url, url', hurl, hurl', rfl⟩

/-- **The order of the calls of `agentpacketadapter`**, with a locator or without. -/
theorem packet_calls_in_order (publishes : Bool) (packet : AgentPacket.Packet) :
    Orderly (fun T => ∃ work claim, T = AgentPacket.terms work claim packet ∧
        AgentPacket.decode S.unicode S.hash packet = .ok (work, claim))
      (Ending S.settles (fun evidence outcome value => value = (outcome, evidence))
        (fun _ => False))
      (AgentPacket.execute S publishes packet) := by
  refine orderly ?_
  rintro ⟨work, claim⟩ hdecoded
  refine ⟨_, ⟨work, claim, rfl, hdecoded⟩, ?_⟩
  refine .call .idle fun answer => .orFail (.claimed _) rfl ?_
  rintro evidence rfl
  refine .ensure (.claimed _) rfl fun hbound => ?_
  refine .call (.claimed _) fun answer => .orFail (.ran hbound _) rfl ?_
  rintro outcome rfl
  refine .ensure (.ran hbound _) rfl fun hown => ?_
  refine .still (P := fun _ => True) ?_ fun _ _ => .settle hbound hown rfl
  cases publishes with
  | false => exact ⟨.ran hbound _, rfl, trivial⟩
  | true =>
    refine .call (.ran hbound _) fun _ => .orFail (.ran hbound _) rfl fun _ _ => ?_
    refine .call (.ran hbound _) fun _ => .orFail (.ran hbound _) rfl fun _ _ => ?_
    exact ⟨.ran hbound _, rfl, trivial⟩

end TosAi.Transport
