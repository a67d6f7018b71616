import Weftos.Chain.Event
import Weftos.Resource.Inclusion

/-! Applying a peer's tree difference with its signed mutation events (`clawft-kernel/src/tree_manager.rs`,
`exo-resource-tree/src/mutation.rs`). The payloads of the difference are applied without any signature. -/

namespace Weftos.Resource.Sync
open Lib Lib.Bytes Lib.Outcome Lib.Text Chain.Event
open Resource.Path Resource.Tree Shape Current Merkle List ResourceTree

/-! ### Mutation events -/

inductive MutationEvent (V : Type) where
  | create (id : ResourceId) (kind : ResourceKind) (parent : ResourceId) (timestamp : Timestamp)
      (signature : Option Octets)
  | remove (id : ResourceId) (timestamp : Timestamp) (signature : Option Octets)
  | updateMeta (id : ResourceId) (key : String) (value : Option V) (timestamp : Timestamp) (signature : Option Octets)
  | move (id oldParent newParent : ResourceId) (timestamp : Timestamp) (signature : Option Octets)
  | updateScoring (id : ResourceId) (old new : NodeScoring) (timestamp : Timestamp) (signature : Option Octets)

/-- Ed25519 as `ed25519_dalek` offers it, with the text of a refusal, and the text `chrono` gives a time. -/
structure Signing (K : Type) where
  verify : (pubkey : K) → (message signature : Octets) → Except String Unit
  rfc3339 : Timestamp → String

variable {V K : Type}

namespace MutationEvent

/-- The operation, path, time and signature of `mutation_sign_parts`. -/
def signParts : MutationEvent V → String × ResourceId × Timestamp × Option Octets
  | .create id _ _ timestamp signature => ("create", id, timestamp, signature)
  | .remove id timestamp signature => ("remove", id, timestamp, signature)
  | .updateMeta id _ _ timestamp signature => ("update_meta", id, timestamp, signature)
  | .move id _ _ timestamp signature => ("move", id, timestamp, signature)
  | .updateScoring id _ _ timestamp signature => ("update_scoring", id, timestamp, signature)

def id (event : MutationEvent V) : ResourceId := event.signParts.2.1

def signature (event : MutationEvent V) : Option Octets := event.signParts.2.2.2

def unsigned : MutationEvent V → MutationEvent V
  | .create id kind parent timestamp _ => .create id kind parent timestamp none
  | .remove id timestamp _ => .remove id timestamp none
  | .updateMeta id key value timestamp _ => .updateMeta id key value timestamp none
  | .move id oldParent newParent timestamp _ => .move id oldParent newParent timestamp none
  | .updateScoring id old new timestamp _ => .updateScoring id old new timestamp none

end MutationEvent

def mutationCanonicalBytes (s : Signing K) (operation : String) (path : ResourceId) (timestamp : Timestamp) : Octets :=
  utf8 s!"{operation}|{path.path}|{s.rfc3339 timestamp}"

def canonical (s : Signing K) (event : MutationEvent V) : Octets :=
  mutationCanonicalBytes s event.signParts.1 event.signParts.2.1 event.signParts.2.2.1

def verifyMutationSignature (s : Signing K) (event : MutationEvent V) (pubkey : K) : Except String Unit := do
  let sigBytes ← require event.signature "mutation event has no signature"
  ensure (sigBytes.length = 64) s!"mutation signature length {sigBytes.length}, expected 64"
  (s.verify pubkey (canonical s event) sigBytes).mapError fun e => s!"mutation signature verify failed: {e}"

def mutationEventEq [BEq V] : MutationEvent V → MutationEvent V → Bool
  | .create id kind parent timestamp _, .create id' kind' parent' timestamp' _ =>
    id = id' && kind = kind' && parent = parent' && timestamp = timestamp'
  | .remove id timestamp _, .remove id' timestamp' _ => id = id' && timestamp = timestamp'
  | .updateMeta id key value timestamp _, .updateMeta id' key' value' timestamp' _ =>
    id = id' && key = key' && value == value' && timestamp = timestamp'
  | _, _ => false

/-! ### Applying them -/

structure TreeManager (V : Type) where
  tree : ResourceTree V
  log : List (MutationEvent V)

def setOrRemove (metadata : List (String × V)) (key : String) : Option V → List (String × V)
  | some value => Table.insert metadata key value
  | none => Table.remove metadata key

section
variable (o : Outside V)

def applyEvent (t : ResourceTree V) : MutationEvent V → Except TreeError (ResourceTree V)
  | .create id kind parent _ _ =>
    if (t.get id).isNone then do
      let inserted ← t.insert id kind parent
      pure (inserted.recomputePath o id)
    else pure t
  | .remove id _ _ =>
    if (t.get id).isSome then do
      let (removed, rest) ← t.remove id
      match removed.parent with
      | some parent => pure (rest.recomputePath o parent)
      | none => pure rest
    else pure t
  | .updateMeta id key value _ _ =>
    pure ((t.modify id fun node => { node with metadata := setOrRemove node.metadata key value }).recomputePath o id)
  | .updateScoring id _ new _ _ => if (t.get id).isSome then pure (t.updateScoring o id new) else pure t
  | .move _ _ _ _ _ => pure t

variable [BEq V] (s : Signing K)

def applyRemoteMutationInner (m : TreeManager V) (event : MutationEvent V) : Except String (TreeManager V) := do
  ensure ((m.log.getLast?.any fun last => mutationEventEq last event) = false)
    "mutation replay rejected: exact duplicate of last event"
  let tree ← (applyEvent o m.tree event).mapError TreeError.message
  pure ⟨tree, m.log ++ [event]⟩

def applyRemoteMutationVerified (m : TreeManager V) (event : MutationEvent V) (pubkey : K) :
    Except String (TreeManager V) := do
  verifyMutationSignature s event pubkey
  applyRemoteMutationInner o m event

/-- The loop over the events. A refusal whose text speaks of a replay is passed over; any other ends it,
with what was applied so far. -/
def applyEvents (pubkey : K) : TreeManager V → List (MutationEvent V) → Nat → TreeManager V × Except String Nat
  | m, [], applied => (m, .ok applied)
  | m, event :: rest, applied =>
    if m.log.any fun e => mutationEventEq e event then applyEvents pubkey m rest applied
    else
      match applyRemoteMutationVerified o s m event pubkey with
      | .ok m' => applyEvents pubkey m' rest (applied + 1)
      | .error e => if containsText e "replay" then applyEvents pubkey m rest applied else (m, .error e)

def carried (entry : MerkleDiffEntry V) : Option (DiffNodePayload V) :=
  if entry.diffKind = .removed then none else entry.node

def ensureNode (t : ResourceTree V) (payload : DiffNodePayload V) : ResourceTree V :=
  match (t.get payload.id).isNone, payload.parent with
  | true, some parent =>
    match t.insert payload.id payload.kind parent with
    | .ok inserted => inserted
    | .error _ => t
  | _, _ => t

def overwritten (payload : DiffNodePayload V) (node : ResourceNode V) : ResourceNode V :=
  { node with metadata := payload.metadata, scoring := payload.scoring, kind := payload.kind }

def reconcile (t : ResourceTree V) (payload : DiffNodePayload V) : ResourceTree V :=
  ((ensureNode t payload).modify payload.id (overwritten payload)).recomputePath o payload.id

def applyMerkleDiffVerified (m : TreeManager V) (diff : MerkleDiff V) (signedEvents : List (MutationEvent V))
    (pubkey : K) : TreeManager V × Except String Nat :=
  if diff.inSync then (m, .ok 0)
  else
    match applyEvents o s pubkey m signedEvents 0 with
    | (m', .ok applied) =>
      ({ m' with tree := (diff.entries.filterMap carried).foldl (reconcile o) m'.tree }, .ok applied)
    | (m', .error e) => (m', .error e)

end

/-! ### The steps of a call -/

/-- One change made to the tree, by an event or by a payload of the difference. -/
structure Step (V : Type) where
  before : ResourceTree V
  cause : MutationEvent V ⊕ DiffNodePayload V
  after : ResourceTree V

variable {step : Step V}

section
variable (o : Outside V)

def payloadSteps : ResourceTree V → List (DiffNodePayload V) → List (Step V)
  | _, [] => []
  | t, payload :: rest => ⟨t, .inr payload, reconcile o t payload⟩ :: payloadSteps (reconcile o t payload) rest

variable [BEq V] (s : Signing K) (pubkey : K)

def eventSteps : TreeManager V → List (MutationEvent V) → List (Step V)
  | _, [] => []
  | m, event :: rest =>
    if m.log.any fun e => mutationEventEq e event then eventSteps m rest
    else
      match applyRemoteMutationVerified o s m event pubkey with
      | .ok m' => ⟨m.tree, .inl event, m'.tree⟩ :: eventSteps m' rest
      | .error e => if containsText e "replay" then eventSteps m rest else []

/-- Payloads are reached only if no event was refused. -/
def steps (m : TreeManager V) (diff : MerkleDiff V) (signedEvents : List (MutationEvent V)) : List (Step V) :=
  if diff.inSync then []
  else eventSteps o s pubkey m signedEvents ++
    match applyEvents o s pubkey m signedEvents 0 with
    | (m', .ok _) => payloadSteps o m'.tree (diff.entries.filterMap carried)
    | (_, .error _) => []

end

inductive Leads : ResourceTree V → List (Step V) → ResourceTree V → Prop
  | nil : Leads t [] t
  | cons (rest : Leads t' later t'') : Leads t (⟨t, cause, t'⟩ :: later) t''

theorem Leads.append {t t' t'' : ResourceTree V} (first : Leads t front t') (second : Leads t' later t'') :
    Leads t (front ++ later) t'' := by
  induction first with
  | nil => exact second
  | cons _ ih => exact .cons (ih second)

theorem payloadSteps_lead (o : Outside V) (t : ResourceTree V) (payloads : List (DiffNodePayload V)) :
    Leads t (payloadSteps o t payloads) (payloads.foldl (reconcile o) t) := by
  induction payloads generalizing t with
  | nil => exact .nil
  | cons payload rest ih => exact .cons (ih (reconcile o t payload))

section
variable [BEq V] (o : Outside V) (s : Signing K) (pubkey : K)

theorem eventSteps_lead (m : TreeManager V) (events : List (MutationEvent V)) (count : Nat) :
    Leads m.tree (eventSteps o s pubkey m events) (applyEvents o s pubkey m events count).1.tree := by
  induction events generalizing m count with
  | nil => exact .nil
  | cons event rest ih =>
    rw [eventSteps, applyEvents]
    split
    · exact ih m count
    · cases applyRemoteMutationVerified o s m event pubkey with
      | ok m' => exact .cons (ih m' (count + 1))
      | error e =>
        dsimp only
        split
        · exact ih m count
        · exact .nil

theorem steps_lead (m : TreeManager V) (diff : MerkleDiff V) (signedEvents : List (MutationEvent V)) :
    Leads m.tree (steps o s pubkey m diff signedEvents)
      (applyMerkleDiffVerified o s m diff signedEvents pubkey).1.tree := by
  have applied := eventSteps_lead o s pubkey m signedEvents 0
  rw [steps, applyMerkleDiffVerified]
  split
  · exact .nil
  · cases result : applyEvents o s pubkey m signedEvents 0 with
    | mk m' outcome =>
      rw [result] at applied
      cases outcome with
      | ok count => exact applied.append (payloadSteps_lead o m'.tree _)
      | error e =>
        rw [append_nil]
        exact applied

/-- The step of an event that was verified and that the tree took. -/
theorem eventSteps_cause {m : TreeManager V} {events : List (MutationEvent V)}
    (listed : step ∈ eventSteps o s pubkey m events) :
    ∃ event ∈ events, step.cause = .inl event ∧ verifyMutationSignature s event pubkey = .ok () ∧
      applyEvent o step.before event = .ok step.after := by
  induction events generalizing m with
  | nil => cases listed
  | cons event rest ih =>
    have later {m : TreeManager V} (listed : step ∈ eventSteps o s pubkey m rest) : ∃ e ∈ event :: rest,
        step.cause = .inl e ∧ verifyMutationSignature s e pubkey = .ok () ∧
          applyEvent o step.before e = .ok step.after := by
      obtain ⟨e, member, found⟩ := ih listed
      exact ⟨e, mem_cons_of_mem _ member, found⟩
    rw [eventSteps] at listed
    split at listed
    · exact later listed
    · cases done : applyRemoteMutationVerified o s m event pubkey with
      | ok m' =>
        rw [done] at listed
        obtain rfl | listed := mem_cons.mp listed
        · simp only [applyRemoteMutationVerified, applyRemoteMutationInner, bind_ok_iff, ensure_ok_iff, mapError_ok_iff,
            pure_ok_iff] at done
          obtain ⟨_, verified, _, _, tree, made, rfl⟩ := done
          exact ⟨event, mem_cons_self, rfl, verified, made⟩
        · exact later listed
      | error e =>
        rw [done] at listed
        dsimp only at listed
        split at listed
        · exact later listed
        · cases listed

omit [BEq V] in
theorem payloadSteps_cause {t : ResourceTree V} {payloads : List (DiffNodePayload V)}
    (listed : step ∈ payloadSteps o t payloads) :
    ∃ payload ∈ payloads, step.cause = .inr payload ∧ step.after = reconcile o step.before payload := by
  induction payloads generalizing t with
  | nil => cases listed
  | cons payload rest ih =>
    obtain rfl | listed := mem_cons.mp listed
    · exact ⟨payload, mem_cons_self, rfl, rfl⟩
    · obtain ⟨later, member, found⟩ := ih listed
      exact ⟨later, mem_cons_of_mem _ member, found⟩

theorem steps_cause {m : TreeManager V} (listed : step ∈ steps o s pubkey m diff signedEvents) :
    (∃ event ∈ signedEvents, step.cause = .inl event ∧ verifyMutationSignature s event pubkey = .ok () ∧
        applyEvent o step.before event = .ok step.after) ∨
      ∃ payload ∈ diff.entries.filterMap carried, step.cause = .inr payload ∧
        step.after = reconcile o step.before payload := by
  rw [steps] at listed
  split at listed
  · cases listed
  · rcases mem_append.mp listed with applied | reconciled
    · exact .inl (eventSteps_cause o s pubkey applied)
    · split at reconciled
      · exact .inr (payloadSteps_cause o reconciled)
      · cases reconciled

end

end Weftos.Resource.Sync
