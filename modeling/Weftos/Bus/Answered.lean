import Weftos.Bus.Services

/-! Service calls are answered once: every accepted call is in exactly one place. -/

namespace Weftos.Bus.Answered
open Lib Lib.Run Lib.Outcome Bus.Types Services List Table System
open Broker hiding Act step

/-! ### Calls that leave the table -/

def placed (s : System) : List (Nat × Pending) :=
  s.svc.calls ++ (s.replying.map (·.entry) ++ (s.answers.map (·.entry) ++ s.forgotten))

/-- No call comes in; those that leave the table are accounted for, and the forgotten ones
are of a caller that went away. -/
structure Leaves (gone : Pending → Prop) (s t : System) : Prop where
  calls : t.svc.calls.Sublist s.svc.calls
  accepted : t.accepted = s.accepted
  next : s.svc.next ≤ t.svc.next
  placed : (placed t).Perm (placed s)
  addressed : ∀ a ∈ t.answers, a ∈ s.answers ∨ a.event.id = a.entry.2.callerId
  forgotten : ∀ entry ∈ t.forgotten, entry ∈ s.forgotten ∨ entry ∈ s.svc.calls ∧ gone entry.2

variable {conn : Nat} {sess : Session} {entry : Nat × Pending} {result : Except String Json.Value}

section
variable {gone : Pending → Prop} {s : System} {meant : Pending → Bool}

theorem Leaves.of_same (calls : t.svc.calls = s.svc.calls) (next : s.svc.next ≤ t.svc.next)
    (rest : (t.replying, t.accepted, t.answers, t.forgotten) = (s.replying, s.accepted, s.answers, s.forgotten)) :
    Leaves gone s t := by
  simp only [Prod.mk.injEq] at rest
  obtain ⟨replying, accepted, answers, forgotten⟩ := rest
  refine ⟨calls ▸ .refl _, accepted, next, ?_, fun a sent => .inl (answers ▸ sent), fun e lost =>
    .inl (forgotten ▸ lost)⟩
  rw [Answered.placed, Answered.placed, calls, replying, answers, forgotten]

theorem Leaves.refl (s : System) : Leaves gone s s := .of_same rfl le_rfl rfl

theorem Leaves.trans {t u : System} (first : Leaves gone s t) (second : Leaves gone t u) : Leaves gone s u where
  calls := second.calls.trans first.calls
  accepted := second.accepted.trans first.accepted
  next := first.next.trans second.next
  placed := second.placed.trans first.placed
  addressed a sent := (second.addressed a sent).elim (first.addressed a) .inr
  forgotten entry lost := (second.forgotten entry lost).elim (first.forgotten entry)
    fun late => .inr ⟨first.calls.subset late.1, late.2⟩

theorem count_placed (s : System) (entry : Nat × Pending) :
    (placed s).count entry = s.svc.calls.count entry + (s.replying.map (·.entry)).count entry +
      (s.answers.map (·.entry)).count entry + s.forgotten.count entry := by
  simp only [placed, count_append]
  omega

theorem count_split (l : List (Nat × Pending)) (meant : Pending → Bool) (entry : Nat × Pending) :
    (l.filter fun e => meant e.2).count entry + (l.filter fun e => !meant e.2).count entry = l.count entry := by
  rw [← count_append]
  exact (filter_append_perm _ l).count_eq entry

theorem leaves_fail (code : ErrorCode) (message : String) : Leaves gone s (s.fail meant code message) where
  calls := filter_sublist
  accepted := rfl
  next := le_rfl
  placed := by
    refine perm_iff_count.mpr fun entry => ?_
    have split := count_split s.svc.calls meant entry
    have same : ((s.svc.calls.filter fun e => meant e.2).map (failCall code message)).map (·.entry) =
        s.svc.calls.filter fun e => meant e.2 := by
      rw [map_map]
      exact map_id _
    simp only [count_placed, fail, map_append, count_append, same]
    omega
  addressed := by
    intro a sent
    refine (mem_append.mp sent).imp id fun failed => ?_
    obtain ⟨entry, -, rfl⟩ := mem_map.mp failed
    rfl
  forgotten _ := .inl

theorem leaves_forget (left : ∀ p, meant p = true → gone p) : Leaves gone s (s.forget meant) where
  calls := filter_sublist
  accepted := rfl
  next := le_rfl
  placed := by
    refine perm_iff_count.mpr fun entry => ?_
    have split := count_split s.svc.calls meant entry
    simp only [count_placed, forget, count_append]
    omega
  addressed _ := .inl
  forgotten entry lost := (mem_append.mp lost).imp id fun now =>
    ⟨(mem_filter.mp now).1, left entry.2 (mem_filter.mp now).2⟩

theorem leaves_retainServers (keep : Server → Bool) : Leaves gone s (s.retainServers keep) := .of_same rfl le_rfl rfl

theorem leaves_dropConn (conn : Nat) : Leaves (·.callerConn = conn) s (s.dropConn conn) := by
  unfold dropConn failProviderCalls
  exact (leaves_retainServers _).trans ((leaves_fail _ _).trans (leaves_forget fun _ => of_decide_eq_true))

theorem leaves_dropInstance (id : String) : Leaves (·.caller = id) s (s.dropInstance id) := by
  unfold dropInstance failProviderCalls
  exact (leaves_retainServers _).trans ((leaves_fail _ _).trans (leaves_forget fun _ => of_decide_eq_true))

theorem install_eq (s : System) (key : Key) (new : Server) :
    s.install key new = { s with svc := { s.svc with servers := insert s.svc.servers key new } }.failProviderCalls
      fun p => p.serverConn ≠ new.conn ∧ (s.svc.server key).map Server.conn = some p.serverConn := by
  unfold install
  cases s.svc.server key with
  | none => simp [failProviderCalls, fail]
  | some old =>
    by_cases again : old.conn = new.conn
    · have none_meant (p : Pending) : ¬(p.serverConn ≠ new.conn ∧ new.conn = p.serverConn) :=
        fun both => both.1 both.2.symm
      simp [again, failProviderCalls, fail, none_meant]
    · have meant (p : Pending) : p.serverConn = old.conn ↔ p.serverConn ≠ new.conn ∧ old.conn = p.serverConn :=
        ⟨fun same => ⟨same ▸ again, same.symm⟩, fun both => both.2.symm⟩
      simp [again, ← meant]

theorem leaves_install (key : Key) (server : Server) : Leaves gone s (s.install key server) := by
  have placed : Leaves gone s { s with svc := { s.svc with servers := insert s.svc.servers key server } } :=
    .of_same rfl le_rfl rfl
  rw [install_eq]
  exact placed.trans (leaves_fail _ _)

theorem finish_entry (env : Env) (r : Replying) : (r.finish env).1.entry = r.entry := by
  unfold Replying.finish
  split
  · split_ifs <;> rfl
  · rfl

theorem finish_addressed (env : Env) (r : Replying) : (r.finish env).1.event.id = r.entry.2.callerId := by
  unfold Replying.finish
  split
  · split_ifs <;> rfl
  · rfl

theorem leaves_send (env : Env) (call : Nat) : Leaves gone s (s.send env call) where
  calls := .refl _
  accepted := rfl
  next := le_rfl
  placed := by
    refine perm_iff_count.mpr fun entry => ?_
    have sent : ((s.replying.filter (·.entry.1 = call)).map fun r => (r.finish env).1).map (·.entry) =
        (s.replying.filter (·.entry.1 = call)).map (·.entry) := by
      rw [map_map]
      exact map_congr_left fun r _ => finish_entry env r
    have split : ((s.replying.filter (·.entry.1 = call)).map (·.entry)).count entry +
        ((s.replying.filter (·.entry.1 ≠ call)).map (·.entry)).count entry =
          (s.replying.map (·.entry)).count entry := by
      rw [← count_append, ← map_append]
      have both := filter_append_perm (fun r : Replying => decide (r.entry.1 = call)) s.replying
      simp only [← decide_not] at both
      exact (both.map _).count_eq entry
    simp only [count_placed, send, map_append, count_append, sent]
    omega
  addressed := by
    intro a sent
    refine (mem_append.mp sent).imp id fun replied => ?_
    obtain ⟨r, -, rfl⟩ := mem_map.mp replied
    rw [finish_addressed, finish_entry]
  forgotten _ := .inl

theorem leaves_reply
    (distinct : (s.svc.calls.map (·.1)).Nodup) (replied : s.replyCall conn sess call result = .ok ((), t)) :
    Leaves gone s t := by
  simp only [replyCall, bind_ok_iff, require_ok_iff, pure_ok_iff, Prod.mk.injEq, true_and] at replied
  obtain ⟨p, mine, rfl⟩ := replied
  have found := (Option.filter_eq_some_iff.mp mine).1
  refine ⟨filter_sublist, rfl, le_rfl, ?_, fun _ => .inl, fun _ => .inl⟩
  refine perm_iff_count.mpr fun entry => ?_
  have taken := (perm_remove distinct found).count_eq entry
  simp only [count_placed, map_append, map_cons, map_nil, count_append, count_cons,
    count_nil] at taken ⊢
  omega

end

/-! ### Routing -/

def Routed (svc : Svc) : Prop :=
  ∀ entry ∈ svc.calls, ∃ server, svc.server entry.2.service = some server ∧ server.conn = entry.2.serverConn

section
variable {s : System}

theorem Routed.fewer {svc : Svc} (routed : Routed svc) (fewer : calls.Sublist svc.calls)
    (next : Nat) : Routed ⟨svc.servers, calls, next⟩ := fun entry listed => routed entry (fewer.subset listed)

theorem routed_dropConn (routed : Routed s.svc) (conn : Nat) : Routed (s.dropConn conn).svc := by
  intro entry left
  obtain ⟨waiting, other⟩ := mem_filter.mp (mem_filter.mp left).1
  obtain ⟨server, found, on⟩ := routed entry waiting
  have elsewhere : entry.2.serverConn ≠ conn := by simpa using other
  exact ⟨server, lookup_filter found (decide_eq_true (on ▸ elsewhere)), on⟩

theorem routed_dropInstance (routed : Routed s.svc) (id : String) : Routed (s.dropInstance id).svc := by
  intro entry left
  obtain ⟨waiting, other⟩ := mem_filter.mp (mem_filter.mp left).1
  obtain ⟨server, found, on⟩ := routed entry waiting
  have elsewhere : entry.2.serverConn ∉ s.svc.connsOf id := by simpa using other
  have stays : server.instance_ ≠ id := by
    intro gone
    refine elsewhere (mem_map.mpr ⟨(entry.2.service, server), mem_filter.mpr ⟨mem_of_lookup found, ?_⟩, on⟩)
    exact decide_eq_true gone
  exact ⟨server, lookup_filter found (decide_eq_true stays), on⟩

theorem routed_install (routed : Routed s.svc) (key : Key) (new : Server) : Routed (s.install key new).svc := by
  rw [install_eq]
  intro entry left
  obtain ⟨waiting, spared⟩ := mem_filter.mp left
  obtain ⟨server, found, on⟩ := routed entry waiting
  by_cases same : entry.2.service = key
  · rw [same] at found
    have again : entry.2.serverConn = new.conn := by simpa [found, on] using spared
    exact ⟨new, same ▸ lookup_insert_self .., again.symm⟩
  · exact ⟨server, lookup_insert_of_ne new found same, on⟩

end

structure Accepts (s : System) (d : CallDelivery) (p : Pending) : Prop where
  number : d.call = s.svc.next + 1
  server : ∃ server, s.svc.server p.service = some server ∧ server.conn = p.serverConn
  service : s.svc.pendingOn p.service < MAX_PENDING_PER_SERVICE
  caller : s.svc.pendingFrom p.caller < MAX_PENDING_PER_CALLER

inductive Turn (gone : Pending → Prop) (s : System) : System → Prop
  | leaves (left : Leaves gone s t) (routed : Routed t.svc) : Turn gone s t
  | accept (d : CallDelivery) (p : Pending) (accepts : Accepts s d p) : Turn gone s (s.accept d p)

/-- Whose calls an action forgets: those of the connection it closes or of the instance it
revokes. -/
def callerGone : Act → Pending → Prop
  | .bus (.close conn), p => p.callerConn = conn
  | .bus (.revoke id), p => p.caller = id
  | _, _ => False

theorem attempt_of {motive : System → Prop} (stay : motive s) {α : Type} {result : Except BusError (α × System)}
    (ok : ∀ value next, result = .ok (value, next) → motive next) : motive (s.attempt result) := by
  match result with
  | .ok (value, next) => exact ok value next rfl
  | .error _ => exact stay

theorem withSession_of {motive : System → Prop} (stay : motive s) {call : Session → System}
    (ok : ∀ sess, motive (call sess)) : motive (s.withSession conn call) := by
  unfold withSession
  cases s.core.sessions conn with
  | none => exact stay
  | some sess => exact ok sess

/-- What `serve_topic` asks before it changes anything. -/
structure MayServe (s : System) (policy : BusPolicy) (sess : Session) (key : Key) (schema : String)
    (spec : InstanceSpec) :
    Prop where
  named : (Text.startsWith key.1 KIND_PREFIX && validTopicKind key.1 && validSourceId key.2) = true
  found : s.core.specOf sess "serve" = .ok spec
  declared : serviceOutput (sess.declared.elim spec.outputs (·.1)) key.1 schema
    (refuse sess.instanceId "serve" key.topic) =
    .ok ()
  own : (s.svc.server key).all (·.instance_ = sess.instanceId) = true
  gate : policy.gate ⟨.serve, sess.instanceId, spec.cogId, spec.projectId, key.topic, schema, none⟩ = .ok ()

theorem serveTopic_ok_iff {s : System} {policy : BusPolicy} {key : Key} {schema : String} :
    s.serveTopic policy conn sess key schema = .ok (topic, t) ↔ ∃ spec, MayServe s policy sess key schema spec ∧
      topic = key.topic ∧ t = s.install key ⟨sess.instanceId, conn, spec.projectId, schema⟩ := by
  simp only [serveTopic, bind_ok_iff, ensure_ok_iff, pure_ok_iff, Prod.mk.injEq]
  constructor
  · rintro ⟨_, named, spec, found, _, declared, _, own, _, gate, rfl, rfl⟩
    exact ⟨spec, ⟨named, found, declared, own, gate⟩, rfl, rfl⟩
  · rintro ⟨spec, may, rfl, rfl⟩
    exact ⟨(), may.named, spec, may.found, (), may.declared, (), may.own, (), may.gate, rfl, rfl⟩

section
variable {env : Env} {gone : Pending → Prop} {s t : System}

section
variable (routed : Routed s.svc)
include routed

theorem Turn.stay : Turn gone s s := .leaves (.refl s) routed

theorem turn_serve {policy : BusPolicy}
    (served : s.serveTopic policy conn sess key schema = .ok (topic, t)) : Turn gone s t := by
  obtain ⟨spec, -, -, rfl⟩ := serveTopic_ok_iff.mp served
  exact .leaves (leaves_install _ _) (routed_install routed _ _)

theorem turn_call {policy : BusPolicy} {result : Except BusError Unit}
    (called : s.callService env policy conn sess reqId topic schema body timeoutMs reachable now recvNs =
      .ok (result, t)) :
    Turn gone s t := by
  simp only [callService, bind_ok_iff, require_ok_iff, ensure_ok_iff] at called
  obtain ⟨key, -, _, -, spec, -, _, -, server, found, _, -, _, -, _, -, _, room, called⟩ := called
  obtain ⟨service, caller⟩ : s.svc.pendingOn key < MAX_PENDING_PER_SERVICE ∧
      s.svc.pendingFrom sess.instanceId < MAX_PENDING_PER_CALLER := by simpa using room
  split_ifs at called with sent
  · cases called
    exact .accept _ _ ⟨rfl, ⟨server, found, rfl⟩, service, caller⟩
  · cases called
    exact .leaves (.of_same rfl (Nat.le_succ _) rfl) routed

theorem turn_reply (distinct : (s.svc.calls.map (·.1)).Nodup) {call : Nat}
    (replied : s.replyCall conn sess call result = .ok (value, t)) :
    Turn gone s t := by
  have left : Leaves gone s t := leaves_reply distinct replied
  simp only [replyCall, bind_ok_iff, pure_ok_iff, Prod.mk.injEq, true_and] at replied
  obtain ⟨p, -, rfl⟩ := replied
  exact .leaves left (routed.fewer left.calls _)

end

theorem leaves_after (act : Broker.Act) : Leaves (callerGone (.bus act)) s (s.after act) := by
  cases act with
  | revoke id =>
    simp only [System.after]
    split_ifs
    · exact leaves_dropInstance id
    · exact .refl s
  | close conn =>
    simp only [System.after]
    split_ifs
    · exact leaves_dropConn conn
    · exact .refl s
  | _ => exact .refl s

theorem routed_after (routed : Routed s.svc) (act : Broker.Act) : Routed (s.after act).svc := by
  cases act with
  | revoke id =>
    simp only [System.after]
    split_ifs
    · exact routed_dropInstance routed id
    · exact routed
  | close conn =>
    simp only [System.after]
    split_ifs
    · exact routed_dropConn routed conn
    · exact routed
  | _ => exact routed

theorem step_turn (routed : Routed s.svc) (distinct : (s.svc.calls.map (·.1)).Nodup) (act : Act) :
    Turn (callerGone act) s (step env s act) := by
  cases act with
  | bus act => exact .leaves ((leaves_after act).trans (.of_same rfl le_rfl rfl)) (routed_after routed act)
  | serve =>
    exact withSession_of (.stay routed) fun sess => attempt_of (.stay routed) fun _ _ => turn_serve routed
  | call =>
    exact withSession_of (.stay routed) fun sess => attempt_of (.stay routed) fun _ _ => turn_call routed
  | reply =>
    exact withSession_of (.stay routed) fun sess => attempt_of (.stay routed) fun _ _ => turn_reply routed distinct
  | send call => exact .leaves (leaves_send env call) routed
  | expire now =>
    have left : Leaves (callerGone (.expire now)) s (s.expireCalls now) := leaves_fail _ _
    exact .leaves left (routed.fewer left.calls _)

end

structure Inv (s : System) : Prop where
  account : s.accepted.Perm (placed s)
  distinct : (s.accepted.map (·.1)).Nodup
  fresh : ∀ entry ∈ s.accepted, entry.1 ≤ s.svc.next
  addressed : ∀ a ∈ s.answers, a.event.id = a.entry.2.callerId
  perService : ∀ key, s.svc.pendingOn key ≤ MAX_PENDING_PER_SERVICE
  perCaller : ∀ caller, s.svc.pendingFrom caller ≤ MAX_PENDING_PER_CALLER
  routed : Routed s.svc

theorem Inv.new : Inv new :=
  ⟨.nil, nodup_nil, fun _ => nofun, fun _ => nofun, fun _ => Nat.zero_le _, fun _ => Nat.zero_le _, fun _ => nofun⟩

section
variable {env : Env} {s t : System} (inv : Inv s)
include inv

theorem Inv.leaves {gone : Pending → Prop} (leaves : Leaves gone s t) (routed : Routed t.svc) : Inv t where
  account := leaves.accepted ▸ inv.account.trans leaves.placed.symm
  distinct := leaves.accepted ▸ inv.distinct
  fresh entry accepted := (inv.fresh entry (leaves.accepted ▸ accepted)).trans leaves.next
  addressed a sent := (leaves.addressed a sent).elim (inv.addressed a) id
  perService key := leaves.calls.countP_le.trans (inv.perService key)
  perCaller caller := leaves.calls.countP_le.trans (inv.perCaller caller)
  routed := routed

theorem Inv.waiting (waiting : entry ∈ s.svc.calls) : entry ∈ s.accepted :=
  inv.account.mem_iff.mpr (mem_append_left _ waiting)

theorem Inv.numbers : ((placed s).map (·.1)).Nodup := (inv.account.map _).nodup_iff.mp inv.distinct

theorem Inv.accept (accepts : Accepts s d p) : Inv (s.accept d p) := by
  have fresh : ∀ entry ∈ s.accepted, entry.1 ≠ d.call := by
    intro entry accepted same
    have bound := inv.fresh entry accepted
    have number := accepts.number
    omega
  have calls : (s.accept d p).svc.calls = s.svc.calls ++ [(d.call, p)] :=
    insert_fresh p fun entry waiting => fresh entry (inv.waiting waiting)
  refine ⟨?_, ?_, ?_, inv.addressed, ?_, ?_, ?_⟩
  · refine perm_iff_count.mpr fun entry => ?_
    have account := inv.account.count_eq entry
    rw [count_placed] at account ⊢
    rw [calls]
    simp only [System.accept, count_append]
    omega
  · simp only [System.accept, map_append, map_cons, map_nil]
    refine nodup_append.mpr ⟨inv.distinct, nodup_singleton _, ?_⟩
    intro id listed _ last
    obtain ⟨entry, accepted, rfl⟩ := mem_map.mp listed
    exact mem_singleton.mp last ▸ fresh entry accepted
  · intro entry accepted
    have number := accepts.number
    rcases mem_append.mp accepted with old | new
    · have bound := inv.fresh entry old
      show entry.1 ≤ d.call
      omega
    · rw [mem_singleton.mp new]
      exact le_rfl
  · intro key
    have old := inv.perService key
    rw [Svc.pendingOn, calls, countP_append]
    by_cases here : p.service = key
    · subst here
      rw [countP_cons_of_pos (by simp)]
      exact accepts.service
    · rw [countP_cons_of_neg (by simpa using here)]
      exact old
  · intro caller
    have old := inv.perCaller caller
    rw [Svc.pendingFrom, calls, countP_append]
    by_cases here : p.caller = caller
    · subst here
      rw [countP_cons_of_pos (by simp)]
      exact accepts.caller
    · rw [countP_cons_of_neg (by simpa using here)]
      exact old
  · intro entry waiting
    rw [calls] at waiting
    rcases mem_append.mp waiting with old | new
    · exact inv.routed entry old
    · rw [mem_singleton.mp new]
      exact accepts.server

theorem Inv.turn (env : Env) (act : Act) : Turn (callerGone act) s (step env s act) :=
  step_turn inv.routed (inv.numbers.sublist ((sublist_append_left _ _).map _)) act

theorem Inv.step (act : Act) : Inv (step env s act) := by
  have turn := inv.turn env act
  generalize Services.step env s act = next at turn
  cases turn with
  | leaves left routed => exact inv.leaves left routed
  | accept d p accepts => exact inv.accept accepts

theorem Inv.forgotten (before : entry ∉ s.forgotten)
    (lost : entry ∈ (Services.step env s act).forgotten) : entry ∈ s.svc.calls ∧ callerGone act entry.2 := by
  have turn := inv.turn env act
  generalize Services.step env s act = next at turn lost
  cases turn with
  | leaves left routed => exact (left.forgotten entry lost).resolve_left before
  | accept => exact absurd lost before

end

theorem inv_run (env : Env) (acts : List Act) : Inv (run (step env) new acts) :=
  run_always (fun _ act inv => inv.step act) acts Inv.new

/-! ### Once -/

def answersTo (s : System) (id : Nat) : Nat := (s.answers.map (·.entry.1)).count id

def CallerLeft (env : Env) (acts : List Act) (entry : Nat × Pending) : Prop :=
  ∃ before act after, acts = before ++ act :: after ∧ entry ∈ (run (step env) new before).svc.calls ∧
    callerGone act entry.2

section
variable {s : System}

theorem Inv.answers_nodup (inv : Inv s) : (s.answers.map (·.entry.1)).Nodup := by
  have part : (s.answers.map (·.entry)).Sublist (placed s) :=
    (sublist_append_left _ s.forgotten).trans
      ((sublist_append_right (s.replying.map (·.entry)) _).trans (sublist_append_right s.svc.calls _))
  have numbers := inv.numbers.sublist (part.map (·.1))
  rwa [map_map] at numbers

theorem Inv.answered (inv : Inv s) (sent : entry ∈ s.answers.map (·.entry)) : answersTo s entry.1 = 1 := by
  obtain ⟨a, listed, rfl⟩ := mem_map.mp sent
  exact count_eq_one_of_mem inv.answers_nodup (mem_map_of_mem listed)

/-- An accepted call that no longer waits is answered, or a reply that has it answers it, or
it was forgotten. -/
theorem Inv.left (inv : Inv s) (env : Env) (accepted : entry ∈ s.accepted) (left : entry ∉ s.svc.calls) :
    answersTo s entry.1 = 1 ∨ (∃ r ∈ s.replying, r.entry = entry ∧ answersTo (s.send env entry.1) entry.1 = 1) ∨
      entry ∈ s.forgotten := by
  have somewhere := inv.account.mem_iff.mp accepted
  simp only [placed, mem_append, left, false_or] at somewhere
  rcases somewhere with taken | answered | forgotten
  · obtain ⟨r, listed, rfl⟩ := mem_map.mp taken
    refine .inr (.inl ⟨r, listed, rfl, ?_⟩)
    have later : Inv (s.send env r.entry.1) := inv.step (.send r.entry.1)
    refine later.answered (mem_map.mpr ⟨(r.finish env).1, ?_, finish_entry env r⟩)
    exact mem_append_right _ (mem_map.mpr ⟨r, mem_filter.mpr ⟨listed, decide_eq_true rfl⟩, rfl⟩)
  · exact .inl (inv.answered answered)
  · exact .inr (.inr forgotten)

end

/-- Every call gets at most one answer, addressed to its caller's request; one that left the table has exactly
one when no reply is about to send it, or its caller went away. -/
structure AnsweredOnce (env : Env) (acts : List Act) (s : System) : Prop where
  atMostOnce : ∀ id, answersTo s id ≤ 1
  addressed : ∀ a ∈ s.answers, a.entry ∈ s.accepted ∧ a.event.id = a.entry.2.callerId
  once : ∀ entry ∈ s.accepted, entry ∉ s.svc.calls → answersTo s entry.1 = 1 ∨
    (∃ r ∈ s.replying, r.entry = entry ∧ answersTo (s.send env entry.1) entry.1 = 1) ∨ CallerLeft env acts entry
  routed : ∀ entry ∈ s.svc.calls, (s.svc.server entry.2.service).map (·.conn) = some entry.2.serverConn
  perService : ∀ key, s.svc.pendingOn key ≤ MAX_PENDING_PER_SERVICE
  perCaller : ∀ caller, s.svc.pendingFrom caller ≤ MAX_PENDING_PER_CALLER

theorem answered_once (env : Env) (acts : List Act) :
    AnsweredOnce env acts (run (step env) new acts) := by
  have inv := inv_run env acts
  refine ⟨nodup_iff_count_le_one.mp inv.answers_nodup, ?_, ?_, ?_, inv.perService, inv.perCaller⟩
  · intro a sent
    refine ⟨inv.account.mem_iff.mpr ?_, inv.addressed a sent⟩
    simp only [placed, mem_append]
    exact .inr (.inr (.inl (mem_map_of_mem sent)))
  · intro entry accepted left
    rcases inv.left env accepted left with answered | replying | forgotten
    · exact .inl answered
    · exact .inr (.inl replying)
    · obtain ⟨before, act, after, rfl, not_yet, now⟩ :=
        run_reaches (P := fun s : System => entry ∈ s.forgotten) not_mem_nil forgotten
      have lost := (inv_run env before).forgotten not_yet now
      exact .inr (.inr ⟨before, act, after, rfl, lost⟩)
  · intro entry waiting
    obtain ⟨server, found, on⟩ := inv.routed entry waiting
    rw [found, Option.map_some, on]

/-! ### Providers that change -/

def serves (svc : Svc) (p : Pending) : Bool := (svc.server p.service).map (·.conn) = some p.serverConn

/-- The calls that the step fails are those whose service their connection no longer serves; no
other leaves the table but with its caller. -/
def FailsUnserved (gone : Pending → Prop) (s t : System) : Prop :=
  t.answers = s.answers ++ (s.svc.calls.filter fun e => !serves t.svc e.2).map
    (failCall .unavailable "the service went away") ∧
  ∀ e ∈ s.svc.calls, serves t.svc e.2 = true → ¬gone e.2 → e ∈ t.svc.calls

/-- The calls that wait on the connection from which `conn` takes the service are of that service. -/
def OwnCalls (s : System) (key : Key) (conn : Nat) : Prop :=
  ∀ e ∈ s.svc.calls, e.2.serverConn ≠ conn → (s.svc.server key).map (·.conn) = some e.2.serverConn → e.2.service = key

section
variable {s t : System} {gone : Pending → Prop}

theorem failsUnserved_of (meant : Pending → Bool)
    (answers : t.answers = s.answers ++ (s.svc.calls.filter fun e => meant e.2).map
      (failCall .unavailable "the service went away"))
    (unserved : ∀ e ∈ s.svc.calls, serves t.svc e.2 = !meant e.2)
    (kept : ∀ e ∈ s.svc.calls, meant e.2 = false → ¬gone e.2 → e ∈ t.svc.calls) : FailsUnserved gone s t := by
  constructor
  · have same : s.svc.calls.filter (fun e => meant e.2) = s.svc.calls.filter fun e => !serves t.svc e.2 :=
      filter_congr fun e listed => by rw [unserved e listed, Bool.not_not]
    rw [answers, same]
  · intro e listed served
    rw [unserved e listed] at served
    exact kept e listed (Bool.not_eq_true' _ ▸ served)

variable (routed : Routed s.svc)
include routed

theorem serves_of_routed (e : Nat × Pending) (listed : e ∈ s.svc.calls) : serves s.svc e.2 = true :=
  decide_eq_true (Option.map_eq_some_iff.mpr (routed e listed))

theorem failsUnserved_stay (core : State) : FailsUnserved gone s { s with core := core } :=
  failsUnserved_of (fun _ => false) (by simp) (serves_of_routed routed) fun _ listed _ _ => listed

theorem failsUnserved_dropConn (conn : Nat) (core : State) :
    FailsUnserved (·.callerConn = conn) s { s.dropConn conn with core := core } := by
  refine failsUnserved_of (·.serverConn = conn) rfl ?_ ?_
  · intro e listed
    obtain ⟨server, found, on⟩ := routed e listed
    by_cases here : e.2.serverConn = conn
    · rw [decide_eq_true here]
      refine decide_eq_false fun same => ?_
      obtain ⟨other, remains, again⟩ := Option.map_eq_some_iff.mp same
      have elsewhere := of_decide_eq_true (mem_filter.mp (mem_of_lookup remains)).2
      exact elsewhere (again.trans here)
    · rw [decide_eq_false here]
      have remains : (s.svc.servers.filter fun entry => decide (entry.2.conn ≠ conn)).lookup e.2.service =
        some server :=
        lookup_filter found (decide_eq_true (on ▸ here))
      exact decide_eq_true (Option.map_eq_some_iff.mpr ⟨server, remains, on⟩)
  · intro e listed other left
    exact mem_filter.mpr ⟨mem_filter.mpr ⟨listed, by simp [other]⟩, by simpa using left⟩

theorem failsUnserved_install {key : Key} {new : Server} (alone : OwnCalls s key new.conn) :
    FailsUnserved gone s (s.install key new) := by
  rw [install_eq]
  apply failsUnserved_of (fun p => p.serverConn ≠ new.conn ∧ (s.svc.server key).map (·.conn) = some p.serverConn) rfl
  case kept => exact fun e listed spared _ => mem_filter.mpr ⟨listed, congrArg (!·) spared⟩
  intro e listed
  obtain ⟨server, found, on⟩ := routed e listed
  by_cases same : e.2.service = key
  · rw [same] at found
    have now : serves ⟨insert s.svc.servers key new, s.svc.calls, s.svc.next⟩ e.2 =
      decide (new.conn = e.2.serverConn) := by
      simp [serves, Svc.server, same]
    refine now.trans ?_
    simp [found, on, eq_comm]
  · have spared : ¬(e.2.serverConn ≠ new.conn ∧ (s.svc.server key).map (·.conn) = some e.2.serverConn) :=
      fun failed => same (alone e listed failed.1 failed.2)
    rw [decide_eq_false spared]
    exact decide_eq_true (Option.map_eq_some_iff.mpr ⟨server, lookup_insert_of_ne new found same, on⟩)

theorem ownCalls_of_failsUnserved {key : Key} {new : Server}
    (fails : FailsUnserved (fun _ => False) s (s.install key new)) : OwnCalls s key new.conn := by
  intro e listed elsewhere replaced
  by_contra other
  obtain ⟨server, found, on⟩ := routed e listed
  rw [install_eq] at fails
  have still : (insert s.svc.servers key new).lookup e.2.service = some server := lookup_insert_of_ne new found other
  have stays := fails.2 e listed (decide_eq_true (Option.map_eq_some_iff.mpr ⟨server, still, on⟩)) not_false
  simpa [elsewhere, replaced] using (mem_filter.mp stays).2

end

/-- When a connection closes, the calls that fail are those of the services it served; when one takes over a
service, those of that service, exactly if it is refused or no call of another waits there. -/
theorem provider_change (env : Env) (acts : List Act) (conn : Nat) :
    FailsUnserved (·.callerConn = conn) (run (step env) new acts)
      (step env (run (step env) new acts) (.bus (.close conn))) ∧
    ∀ policy key schema, FailsUnserved (fun _ => False) (run (step env) new acts)
        (step env (run (step env) new acts) (.serve conn policy key schema)) ↔
      ∀ sess spec, (run (step env) new acts).core.sessions conn = some sess →
        MayServe (run (step env) new acts) policy sess key schema spec →
          OwnCalls (run (step env) new acts) key conn := by
  have routed := (inv_run env acts).routed
  generalize run (step env) new acts = s at routed
  constructor
  · simp only [step, System.after]
    split_ifs
    · exact failsUnserved_dropConn routed conn _
    · exact failsUnserved_stay routed _
  · intro policy key schema
    constructor
    · intro fails sess spec open_ may
      have served : s.serveTopic policy conn sess key schema = .ok (key.topic, _) :=
        serveTopic_ok_iff.mpr ⟨spec, may, rfl, rfl⟩
      simp only [step, withSession, open_, Option.elim_some, served, attempt] at fails
      exact ownCalls_of_failsUnserved routed fails
    · intro alone
      have stay : FailsUnserved (fun _ => False) s s := failsUnserved_stay routed s.core
      cases open_ : s.core.sessions conn with
      | none => simpa only [step, withSession, open_, Option.elim_none] using stay
      | some sess =>
        simp only [step, withSession, open_, Option.elim_some]
        refine attempt_of stay fun topic next served => ?_
        obtain ⟨spec, may, -, rfl⟩ := serveTopic_ok_iff.mp served
        exact failsUnserved_install routed (alone sess spec open_ may)

def provider : InstanceSpec :=
  ⟨"a", "probe", none, none, [⟨"svc.one", "sdr.v1", .reading⟩, ⟨"svc.two", "sdr.v1", .reading⟩], []⟩

def called : List Act :=
  [.bus (.register provider tokenA), .bus
    (.register ⟨"b", "board", none, none, [], [⟨"svc.two", "sdr.v1", .dropOldest⟩]⟩ tokenB),
    .bus (.hello tokenA none), .bus (.hello tokenA none), .bus (.hello tokenB none),
    .serve 1 AllowAll ("svc.one", "k") "sdr.v1", .serve 1 AllowAll ("svc.two", "k") "sdr.v1",
    .call 3 AllowAll 9 "svc.two/k" "sdr.v1" .null none true 0 0]

def callOfTwo : Nat × Pending := (1, ⟨("svc.two", "k"), "b", 3, 9, 1, 30000⟩)

theorem provider_change_called : FailsUnserved (fun _ => False) (run (step bench) new called)
    (step bench (run (step bench) new called) (.serve 2 AllowAll ("svc.two", "k") "sdr.v1")) :=
  ((provider_change bench called 2).2 _ _ _).mpr fun _ _ _ _ e waits _ _ => by
    have only : e ∈ [callOfTwo] := waits
    rw [mem_singleton.mp only, callOfTwo]

/-- The other connection takes over the first service: the call of the second fails, which is still served. -/
theorem takeover_fails_other :
    serves (run (step bench) new (called ++ [.serve 2 AllowAll ("svc.one", "k") "sdr.v1"])).svc callOfTwo.2 = true ∧
      (run (step bench) new called).svc.calls = [callOfTwo] ∧
      (run (step bench) new (called ++ [.serve 2 AllowAll ("svc.one", "k") "sdr.v1"])).answers =
        [failCall .unavailable "the service went away" callOfTwo] :=
  ⟨rfl, rfl, rfl⟩

end Weftos.Bus.Answered
