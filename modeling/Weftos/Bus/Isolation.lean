import Mathlib.Data.List.Range
import Weftos.Bus.Mail

/-! Local readings stay in their project: where a delivery on a subscription can come
from, and what becomes of the ones that are missing. -/

namespace Weftos.Bus.Isolation
open Lib.Run Bus.Types Broker List

/-- A connection publishes only while the registration it said hello under is the one live
under its instance id. -/
def inForce (s : State) : Act → Bool
  | .publish conn _ _ _ _ =>
    (s.sessions conn).all fun sess => (s.instances sess.instanceId).all fun inst => inst.serial = sess.serial
  | _ => true

/-! ### Declarations -/

/-- What the session says it declared is in the manifest it said hello under. -/
structure Honest (instances : String → Option Instance) (newest : Nat) (sess : Session) : Prop where
  serial : sess.serial ≤ newest
  declared : ∀ inst declared, instances sess.instanceId = some inst → inst.serial = sess.serial →
    sess.declared = some declared → ∀ o ∈ declared.1, o ∈ inst.spec.outputs

structure Registry (s : State) : Prop where
  instances : ∀ id inst, s.instances id = some inst → inst.serial ≤ s.serial
  sessions : ∀ conn sess, s.sessions conn = some sess → Honest s.instances s.serial sess

theorem Honest.congr (honest : Honest instances newest sess) (id : sess'.instanceId = sess.instanceId)
    (serial : sess'.serial = sess.serial) (declared : sess'.declared = sess.declared) :
    Honest instances newest sess' where
  serial := serial ▸ honest.serial
  declared := by
    rw [id, serial, declared]
    exact honest.declared

variable {s : State}

theorem Registry.setSession (inv : Registry s) (conn : Nat) (changed : Option Session)
    (honest : ∀ sess, changed = some sess → Honest s.instances s.serial sess) :
    ∀ conn' sess, Function.update s.sessions conn changed conn' = some sess →
      Honest s.instances s.serial sess := by
  intro conn' sess found
  by_cases here : conn' = conn
  · subst here
    exact honest sess (by simpa using found)
  · exact inv.sessions conn' sess (by simpa [here] using found)

theorem Registry.registered (inv : Registry s) (spec : InstanceSpec) (h : Lib.Bytes.Octets) :
    Registry (s.registered spec h) where
  instances id inst live := by
    by_cases same : id = spec.instanceId
    · subst same
      obtain rfl : _ = inst := by simpa [State.registered] using live
      exact Nat.le_refl _
    · exact (inv.instances id inst (by simpa [State.registered, same] using live)).trans (Nat.le_succ _)
  sessions conn sess open_ := by
    have old := inv.sessions conn sess open_
    refine ⟨old.serial.trans (Nat.le_succ _), ?_⟩
    intro inst declared live serial
    by_cases same : sess.instanceId = spec.instanceId
    · -- the new registration has a number no session has
      rw [same] at live
      obtain rfl : _ = inst := by simpa [State.registered] using live
      exact absurd serial (Nat.ne_of_gt (Nat.lt_succ_of_le old.serial))
    · exact old.declared inst declared (by simpa [State.registered, same] using live) serial

theorem Registry.revoke (inv : Registry s) (id : String) : Registry (s.revoke id) := by
  unfold State.revoke
  cases live : s.instances id with
  | none => exact inv
  | some gone =>
    have still {other : String} {inst : Instance} (found : Function.update s.instances id none other = some inst) :
        s.instances other = some inst := by
      by_cases same : other = id
      · subst same
        simp at found
      · simpa [same] using found
    refine ⟨fun other inst found => inv.instances other inst (still found), ?_⟩
    intro conn sess open_
    have old := inv.sessions conn sess open_
    exact ⟨old.serial, fun inst declared found => old.declared inst declared (still found)⟩

theorem Registry.step {next : State} (inv : Registry s) (change : Change env s act next) : Registry next := by
  cases change with
  | refused => exact inv
  | registered => exact inv.registered _ _
  | revoked => exact inv.revoke _
  | @greeted inst _ _ id live =>
    refine ⟨inv.instances, inv.setSession _ _ ?_⟩
    rintro sess ⟨⟩
    exact ⟨inv.instances id inst live, nofun⟩
  | @narrowed conn sess inst outputs _ inputs open_ live within =>
    refine ⟨inv.instances, inv.setSession _ _ ?_⟩
    rintro sess' ⟨⟩
    refine ⟨(inv.sessions conn sess open_).serial, ?_⟩
    intro other declared found _ made
    obtain rfl : inst = other := Option.some.inj (live.symm.trans found)
    obtain rfl : (outputs, inputs) = declared := Option.some.inj made
    exact within
  | published | internal | drained => exact ⟨inv.instances, inv.sessions⟩
  | subscribed open_ | left open_ =>
    refine ⟨inv.instances, inv.setSession _ _ ?_⟩
    rintro sess' ⟨⟩
    exact (inv.sessions _ _ open_).congr rfl rfl rfl
  | closed => exact ⟨inv.instances, inv.setSession _ none fun _ => nofun⟩

/-! ### Deliveries -/

structure Sound (o : Opened) : Prop where
  kind : o.decl.topic = o.sub.kind
  schema : o.decl.schema = o.sub.schema
  also : ∀ g ∈ o.sub.also, g ∈ o.grants

/-- A reading this subscription may see: of the kind, source and schema it asked for, and
of its own project or one that a grant for the source names. -/
structure Permitted (o : Opened) (p : Publication) : Prop where
  kind : p.reading.kind = o.decl.topic
  source : o.sub.source.all (· = p.reading.sourceId) = true
  schema : p.reading.schema = o.decl.schema
  project : p.project = o.sub.projectId ∨ ∃ g ∈ o.grants, g.covers p.project p.reading.sourceId = true

structure Carries (d : Delivery) (p : Publication) : Prop where
  topic : onTopic p.reading.key d = true
  seq : d.seq = p.seq
  schema : d.schema = p.reading.schema
  tNs : d.tNs = p.reading.tNs
  body : d.body = p.reading.body

variable {o : Opened} {key : Key} {id : Nat}

theorem Sound.permitted (sound : Sound o) (hit : o.sub.matches r.key t = true)
    (carried : t.schema = r.schema) (seq : Nat) (under : Option InstanceSpec) :
    Permitted o ⟨r, seq, t.projectId, under⟩ := by
  simp only [Sub.matches, Bool.and_eq_true, Bool.or_eq_true, decide_eq_true_eq] at hit
  obtain ⟨⟨⟨kind, source⟩, schema⟩, project⟩ := hit
  refine ⟨(sound.kind.trans kind).symm, source, (sound.schema.trans (schema.trans carried)).symm, ?_⟩
  rcases project with own | other
  · exact .inl own.symm
  · obtain ⟨g, listed, covers⟩ := any_eq_true.mp other
    exact .inr ⟨g, sound.also g listed, covers⟩

/-- The seqs pushed of one topic: one after the other from the subscription on, and up to
the topic's own while it is subscribed. -/
def Consecutive (s : State) (id : Nat) (o : Opened) (key : Key) : Prop :=
  ∃ n, ((s.mail.pushed id).filter (onTopic key)).map (·.seq) = range' (o.after key + 1) n ∧
    o.after key + n ≤ s.seqs key ∧
    ∀ sub t, (id, sub) ∈ s.subs → s.topics key = some t → sub.matches key t = true → o.after key + n = t.seq

structure Delivered (s : State) : Prop where
  ids : (s.subs.map (·.1)).Nodup
  live : ∀ entry ∈ s.subs, ∃ o, s.opened entry.1 = some o ∧ o.sub = entry.2
  fresh : ∀ id, s.nextSub < id → s.opened id = none
  sound : ∀ id o, s.opened id = some o → Sound o
  quiet : ∀ id, s.opened id = none → s.mail.pushed id = []
  accounted : ∀ id, s.mail.Accounted id
  permitted : ∀ id, ∀ d ∈ s.mail.pushed id,
    ∃ o p, s.opened id = some o ∧ p ∈ s.published ∧ Carries d p ∧ Permitted o p
  consecutive : ∀ id o key, s.opened id = some o → Consecutive s id o key
  drops : ∀ key, ((s.topics key).map (·.drops)).getD 0 = s.mail.dropsOn key

section
variable {s : State}

section
variable (inv : Delivered s)
include inv

theorem Delivered.filter (keep : Nat × Sub → Bool) : Delivered { s with subs := s.subs.filter keep } :=
  { inv with
    ids := inv.ids.sublist (filter_sublist.map _)
    live := fun entry listed => inv.live entry (mem_filter.mp listed).1
    consecutive := by
      intro id o key opened
      obtain ⟨n, seqs, upTo, whole⟩ := inv.consecutive id o key opened
      exact ⟨n, seqs, upTo, fun sub t listed => whole sub t (mem_filter.mp listed).1⟩ }

theorem Delivered.retopic (change : Topic → Topic)
    (same : ∀ t, (change t).schema = t.schema ∧ (change t).projectId = t.projectId ∧ (change t).seq = t.seq ∧
      (change t).drops = t.drops) : Delivered { s with topics := fun key => (s.topics key).map change } :=
  { inv with
    consecutive := by
      intro id o key opened
      obtain ⟨n, seqs, upTo, whole⟩ := inv.consecutive id o key opened
      refine ⟨n, seqs, ?_, ?_⟩
      · have seq : (fun t => (change t).seq) = fun t : Topic => t.seq := funext fun t => (same t).2.2.1
        simpa [State.seqs, Function.comp_def, seq] using upTo
      · intro sub t listed found hit
        obtain ⟨old, here, rfl⟩ := Option.map_eq_some_iff.mp found
        obtain ⟨schema, project, seq, _⟩ := same old
        rw [Sub.matches, schema, project] at hit
        rw [seq]
        exact whole sub old listed here hit
    drops := by
      intro key
      have drops : (fun t => (change t).drops) = fun t : Topic => t.drops := funext fun t => (same t).2.2.2
      simpa [Function.comp_def, drops] using inv.drops key }

theorem Delivered.revoke (id : String) : Delivered (s.revoke id) := by
  unfold State.revoke
  cases s.instances id with
  | none => exact inv
  | some inst =>
    have without := (inv.filter fun entry => entry.2.instance_ ≠ id).retopic (·.without id) fun t => by
      unfold Topic.without
      split_ifs <;> exact ⟨rfl, rfl, rfl, rfl⟩
    exact { without with }

theorem Delivered.addSub (conn : Nat) (sess : Session) (sub : Sub) (cap : Nat) (decl : InputSpec) (grants : List Grant)
    (sound : Sound ⟨sub, decl, grants, s.seqs⟩) :
    Delivered (s.addSub conn sess sub cap decl grants) := by
  have unused : s.opened (s.nextSub + 1) = none := inv.fresh _ (Nat.lt_succ_self _)
  have old {id : Nat} {o : Opened} (opened : s.opened id = some o) : id ≠ s.nextSub + 1 := by
    rintro rfl
    rw [unused] at opened
    cases opened
  have listed {entry : Nat × Sub} (there : entry ∈ s.subs) : entry.1 ≠ s.nextSub + 1 := by
    obtain ⟨o, opened, _⟩ := inv.live entry there
    exact old opened
  have opened_ {id : Nat} {o : Opened} (opened : s.opened id = some o) :
      (s.addSub conn sess sub cap decl grants).opened id = some o := by
    simpa [State.addSub, old opened] using opened
  refine { inv with ids := ?_, live := ?_, fresh := ?_, sound := ?_, quiet := ?_, accounted := ?_, permitted := ?_,
                    consecutive := ?_ }
  · rw [State.addSub, map_append, nodup_append]
    refine ⟨inv.ids, nodup_singleton _, ?_⟩
    intro id there other new same
    obtain ⟨entry, before, rfl⟩ := mem_map.mp there
    exact listed before (same.trans (by simpa using new))
  · intro entry there
    rcases mem_append.mp there with before | new
    · obtain ⟨o, opened, same⟩ := inv.live entry before
      exact ⟨o, opened_ opened, same⟩
    · obtain rfl := mem_singleton.mp new
      exact ⟨_, Function.update_self .., rfl⟩
  · intro id beyond
    have higher : s.nextSub + 1 < id := beyond
    exact (Function.update_of_ne (Nat.ne_of_gt higher) ..).trans (inv.fresh id (Nat.lt_of_succ_lt higher))
  · intro id o opened
    by_cases new : id = s.nextSub + 1
    · subst new
      obtain rfl : _ = o := by simpa [State.addSub] using opened
      exact sound
    · exact inv.sound id o (by simpa [State.addSub, new] using opened)
  · intro id opened
    by_cases new : id = s.nextSub + 1
    · subst new
      exact inv.quiet _ unused
    · exact inv.quiet id (by simpa [State.addSub, new] using opened)
  · exact fun id => (inv.accounted id).open cap (inv.quiet _ unused)
  · intro id d pushed
    obtain ⟨o, p, opened, rest⟩ := inv.permitted id d pushed
    exact ⟨o, p, opened_ opened, rest⟩
  · intro id o key opened
    by_cases new : id = s.nextSub + 1
    · -- nothing is pushed yet: the seqs start after the ones the topics have now
      subst new
      obtain rfl : _ = o := by simpa [State.addSub] using opened
      refine ⟨0, ?_, Nat.le_refl _, ?_⟩
      · rw [show (s.addSub conn sess sub cap decl grants).mail.pushed _ = [] from inv.quiet _ unused]
        rfl
      · intro _ t _ found _
        have found : s.topics key = some t := found
        simp [State.seqs, found]
    · obtain ⟨n, seqs, upTo, whole⟩ := inv.consecutive id o key (by simpa [State.addSub, new] using opened)
      refine ⟨n, seqs, upTo, ?_⟩
      intro other t there
      rcases mem_append.mp there with before | last
      · exact whole other t before
      · exact absurd (congrArg Prod.fst (mem_singleton.mp last)) new

theorem Delivered.drain (sess : Session) : Delivered (s.drain sess) := by
  unfold State.drain
  generalize sess.subs = ids
  induction ids generalizing s with
  | nil => exact inv
  | cons id ids ih =>
    have one : Delivered { s with mail := s.mail.drain id } :=
      { inv with accounted := fun other => (inv.accounted other).drain id }
    exact ih one

end

/-! A reading that does not skip a seq. -/

variable {env : Env} {p : Put} {recvNs : Nat}

theorem written_seq (next : p.seq = none) : (s.written p).seq = s.seqs p.reading.key + 1 := by
  simp only [State.written, next, Option.getD_none, State.topicOr, State.seqs]
  cases s.topics p.reading.key <;> rfl

theorem write_topics_self : (s.write env p recvNs).topics p.reading.key = some
    { s.written p with drops := (s.subs.foldl (fan p.reading.key (s.written p) (s.delivery env p recvNs))
      (s.mail, (s.written p).drops)).2 } := Function.update_self ..

theorem write_topics_of_ne (other : key ≠ p.reading.key) : (s.write env p recvNs).topics key = s.topics key :=
  Function.update_of_ne other ..

section
variable (inv : Delivered s)
include inv

theorem Delivered.fanned :
    Fanned p.reading.key (s.delivery env p recvNs) (Reached p.reading.key (s.written p) s.subs)
      (s.mail, (s.written p).drops)
      (s.subs.foldl (fan p.reading.key (s.written p) (s.delivery env p recvNs)) (s.mail, (s.written p).drops)) :=
  foldl_fanned _ _ _ _ _ inv.ids

theorem Delivered.reached (reached : Reached key t s.subs id) :
    ∃ o, s.opened id = some o ∧ (id, o.sub) ∈ s.subs ∧ o.sub.matches key t = true := by
  obtain ⟨sub, listed, hit⟩ := reached
  obtain ⟨o, opened, same⟩ := inv.live _ listed
  obtain rfl : o.sub = sub := same
  exact ⟨o, opened, listed, hit⟩

theorem Delivered.write_permitted (accepts : s.Accepts p) (id : Nat) (d : Delivery)
    (pushed : d ∈ (s.write env p recvNs).mail.pushed id) :
    ∃ o q, s.opened id = some o ∧ q ∈ (s.write env p recvNs).published ∧ Carries d q ∧ Permitted o q := by
  have old (before : d ∈ s.mail.pushed id) :
      ∃ o q, s.opened id = some o ∧ q ∈ (s.write env p recvNs).published ∧ Carries d q ∧ Permitted o q := by
    obtain ⟨o, q, opened, listed, rest⟩ := inv.permitted id d before
    exact ⟨o, q, opened, mem_append_left _ listed, rest⟩
  by_cases reached : Reached p.reading.key (s.written p) s.subs id
  · rw [show (s.write env p recvNs).mail.pushed id = _ from inv.fanned.pushed id reached, mem_append,
      mem_singleton] at pushed
    rcases pushed with before | rfl
    · exact old before
    · obtain ⟨o, opened, _, hit⟩ := inv.reached reached
      refine ⟨o, _, opened, mem_append_right _ (mem_singleton.mpr rfl), ?_,
        (inv.sound id o opened).permitted hit accepts.schema _ _⟩
      refine ⟨?_, rfl, rfl, rfl, rfl⟩
      rw [onTopic_delivery]
      exact decide_eq_true rfl
  · rw [show (s.write env p recvNs).mail.pushed id = _ from inv.fanned.others id reached] at pushed
    exact old pushed

theorem Delivered.write_elsewhere (id : Nat) (other : key ≠ p.reading.key) :
    ((s.write env p recvNs).mail.pushed id).filter (onTopic key) = (s.mail.pushed id).filter (onTopic key) := by
  by_cases reached : Reached p.reading.key (s.written p) s.subs id
  · have apart : onTopic key { s.delivery env p recvNs with sub := id } = false := by
      rw [onTopic_delivery]
      exact decide_eq_false (Ne.symm other)
    rw [show (s.write env p recvNs).mail.pushed id = _ from inv.fanned.pushed id reached, filter_append,
      filter_singleton, apart]
    exact append_nil _
  · rw [show (s.write env p recvNs).mail.pushed id = _ from inv.fanned.others id reached]

theorem Delivered.write_consecutive (next : p.seq = none) (key : Key)
    (opened : s.opened id = some o) : Consecutive (s.write env p recvNs) id o key := by
  obtain ⟨n, seqs, upTo, whole⟩ := inv.consecutive id o key opened
  by_cases same : key = p.reading.key
  · subst same
    have seq := written_seq (s := s) next
    have newSeq : (s.write env p recvNs).seqs p.reading.key = s.seqs p.reading.key + 1 := by
      rw [State.seqs, write_topics_self]
      exact seq
    by_cases reached : Reached p.reading.key (s.written p) s.subs id
    · obtain ⟨o', opened', listed, hit⟩ := inv.reached reached
      obtain rfl : o = o' := Option.some.inj (opened.symm.trans opened')
      -- so far it has everything of this topic
      have caught : o.after p.reading.key + n = s.seqs p.reading.key := by
        cases found : s.topics p.reading.key with
        | none =>
          have zero : s.seqs p.reading.key = 0 := by simp [State.seqs, found]
          omega
        | some t =>
          rw [matches_written found] at hit
          have last := whole o.sub t listed found hit
          simpa [State.seqs, found] using last
      refine ⟨n + 1, ?_, ?_, ?_⟩
      · have mine : onTopic p.reading.key { s.delivery env p recvNs with sub := id } = true := by
          rw [onTopic_delivery]
          exact decide_eq_true rfl
        have last : (s.delivery env p recvNs).seq = o.after p.reading.key + 1 + n := by
          show (s.written p).seq = _
          omega
        rw [show (s.write env p recvNs).mail.pushed id = _ from inv.fanned.pushed id reached, filter_append,
          filter_singleton, mine, map_append, seqs, range'_concat]
        simp [last]
      · omega
      · intro sub t' _ found _
        rw [write_topics_self] at found
        obtain rfl := Option.some.inj found
        show _ = (s.written p).seq
        omega
    · refine ⟨n, ?_, by omega, ?_⟩
      · rw [show (s.write env p recvNs).mail.pushed id = _ from inv.fanned.others id reached]
        exact seqs
      · intro sub t' listed found hit
        rw [write_topics_self] at found
        obtain rfl := Option.some.inj found
        exact absurd ⟨sub, listed, hit⟩ reached
  · refine ⟨n, ?_, ?_, ?_⟩
    · rw [inv.write_elsewhere id same]
      exact seqs
    · rwa [State.seqs, write_topics_of_ne same]
    · intro sub t listed found
      rw [write_topics_of_ne same] at found
      exact whole sub t listed found

theorem Delivered.write_drops (key : Key) :
    (((s.write env p recvNs).topics key).map (·.drops)).getD 0 = (s.write env p recvNs).mail.dropsOn key := by
  have before := inv.drops key
  by_cases same : key = p.reading.key
  · subst same
    have drops : (s.written p).drops = s.mail.dropsOn p.reading.key := by
      rw [← before]
      simp only [State.written, State.topicOr]
      cases s.topics p.reading.key <;> rfl
    have fanned : Fanned p.reading.key (s.delivery env p recvNs) _ _ _ := inv.fanned
    have counted := fanned.counted
    dsimp only at counted
    rw [drops, Nat.add_comm, Nat.add_left_cancel_iff, ← drops] at counted
    rw [write_topics_self]
    exact counted
  · rw [write_topics_of_ne same, before]
    exact (inv.fanned.elsewhere key same).symm

theorem Delivered.write (next : p.seq = none) (accepts : s.Accepts p) :
    Delivered (s.write env p recvNs) := by
  refine { inv with quiet := ?_, accounted := inv.fanned.accounted inv.accounted,
                    permitted := inv.write_permitted accepts,
                    consecutive := fun _ _ key opened => inv.write_consecutive next key opened,
                    drops := inv.write_drops }
  intro id opened
  have missed : ¬Reached p.reading.key (s.written p) s.subs id := by
    intro reached
    obtain ⟨o, there, _⟩ := inv.reached reached
    rw [show s.opened id = none from opened] at there
    cases there
  exact (inv.fanned.others id missed).trans (inv.quiet id opened)

end

end

/-- The registration a reading was published under was one of its project, with the kind
and schema among its outputs. -/
def Registered (p : Publication) : Prop :=
  ∀ spec, p.under = some spec → p.project = spec.projectId ∧
    ∃ o ∈ spec.outputs, o.topic = p.reading.kind ∧ o.schema = p.reading.schema

theorem write_registered (accepts : s.Accepts p)
    (before : ∀ q ∈ s.published, Registered q) (new : ∀ spec, p.under = some spec → p.project = spec.projectId ∧
      ∃ o ∈ spec.outputs, o.topic = p.reading.kind ∧ o.schema = p.reading.schema) :
    ∀ q ∈ (s.write env p recvNs).published, Registered q := by
  intro q listed
  rcases mem_append.mp listed with old | last
  · exact before q old
  · obtain rfl := mem_singleton.mp last
    intro spec under
    obtain ⟨project, output⟩ := new spec under
    exact ⟨accepts.project.trans project, output⟩

structure Inv (s : State) : Prop where
  registry : Registry s
  delivered : Delivered s
  published : ∀ p ∈ s.published, Registered p

theorem Inv.new : Inv State.new where
  registry := ⟨nofun, nofun⟩
  delivered :=
    { ids := nodup_nil
      live := nofun
      fresh := fun _ _ => rfl
      sound := nofun
      quiet := fun _ _ => rfl
      accounted := fun _ => .new 0
      permitted := nofun
      consecutive := nofun
      drops := fun _ => rfl }
  published := nofun

theorem Inv.step {next : State} (inv : Inv s) (ok : inForce s act = true) (change : Change env s act next) :
    Inv next := by
  have registry := inv.registry.step change
  have delivered := inv.delivered
  cases change with
  | refused => exact inv
  | registered | greeted | narrowed => exact ⟨registry, { delivered with }, inv.published⟩
  | @revoked id =>
    refine ⟨registry, delivered.revoke id, ?_⟩
    unfold State.revoke
    cases s.instances id with
    | none | some _ => exact inv.published
  | @published conn sess inst o r _ _ _ open_ live listed kind schema accepts =>
    refine ⟨registry, delivered.write rfl accepts, write_registered accepts inv.published ?_⟩
    rintro spec ⟨⟩
    have current : inst.serial = sess.serial := by simpa [inForce, open_, live] using ok
    refine ⟨rfl, o, ?_, kind, schema⟩
    cases narrowed : sess.declared with
    | none => simpa [narrowed] using listed
    | some declared =>
      rw [narrowed] at listed
      exact (inv.registry.sessions conn sess open_).declared inst declared live current narrowed o listed
  | internal at_ accepts =>
    exact ⟨registry, delivered.write rfl accepts, write_registered accepts inv.published nofun⟩
  | subscribed open_ project kind declared also =>
    exact ⟨registry, delivered.addSub _ _ _ _ _ _ ⟨kind, declared, also⟩, inv.published⟩
  | left | closed => exact ⟨registry, { delivered.filter _ with }, inv.published⟩
  | drained => exact ⟨registry, delivered.drain _, inv.published⟩

/-! ### What a subscriber sees -/

/-- A seq the subscription could have: up to what it saw, and while it is open up to the
topic's own. -/
def Due (s : State) (id : Nat) (key : Key) (n : Nat) : Prop :=
  (∃ d ∈ s.mail.seen id, onTopic key d = true ∧ n ≤ d.seq) ∨
    ∃ sub t, (id, sub) ∈ s.subs ∧ s.topics key = some t ∧ sub.matches key t = true ∧ n ≤ t.seq

structure Isolated (s : State) : Prop where
  origin : ∀ id, ∀ d ∈ s.mail.seen id,
    ∃ o p, s.opened id = some o ∧ p ∈ s.published ∧ Carries d p ∧ Permitted o p ∧ Registered p
  rising : ∀ id key, (((s.mail.seen id).filter (onTopic key)).map (·.seq)).Pairwise (· < ·)
  missing : ∀ id o key n, s.opened id = some o → Due s id key n →
    n ≤ o.after key ∨ (∃ d ∈ s.mail.seen id, onTopic key d = true ∧ d.seq = n) ∨
      ∃ l ∈ s.mail.lost, l.sub = id ∧ onTopic key l.delivery = true ∧ l.delivery.seq = n
  counted : ∀ key t, s.topics key = some t → t.drops = s.mail.dropsOn key

theorem Delivered.rising (inv : Delivered s) (id : Nat) (key : Key) :
    (((s.mail.seen id).filter (onTopic key)).map (·.seq)).Pairwise (· < ·) := by
  have inOrder := ((inv.accounted id).inOrder.filter (onTopic key)).map (·.seq)
  cases opened : s.opened id with
  | none =>
    rw [inv.quiet id opened] at inOrder
    rw [show ((s.mail.seen id).filter (onTopic key)).map (·.seq) = [] from sublist_nil.mp inOrder]
    exact .nil
  | some o =>
    obtain ⟨n, seqs, _⟩ := inv.consecutive id o key opened
    rw [seqs] at inOrder
    exact List.Pairwise.sublist inOrder pairwise_lt_range'

theorem Delivered.pushed_of_due (inv : Delivered s) (opened : s.opened id = some o)
    (due : Due s id key n) (after : o.after key < n) :
    ∃ d ∈ s.mail.pushed id, onTopic key d = true ∧ d.seq = n := by
  obtain ⟨count, seqs, _, whole⟩ := inv.consecutive id o key opened
  have upTo : n ≤ o.after key + count := by
    rcases due with ⟨d, seen, on, below⟩ | ⟨sub, t, listed, found, hit, below⟩
    · have there : d.seq ∈ ((s.mail.pushed id).filter (onTopic key)).map (·.seq) :=
        mem_map_of_mem (mem_filter.mpr ⟨(inv.accounted id).inOrder.subset seen, on⟩)
      rw [seqs, mem_range'_1] at there
      omega
    · exact (whole sub t listed found hit).symm ▸ below
  have there : n ∈ ((s.mail.pushed id).filter (onTopic key)).map (·.seq) := by
    rw [seqs, mem_range'_1]
    omega
  obtain ⟨d, filtered, same⟩ := mem_map.mp there
  exact ⟨d, (mem_filter.mp filtered).1, (mem_filter.mp filtered).2, same⟩

theorem Delivered.missing (inv : Delivered s) (opened : s.opened id = some o) (due : Due s id key n) :
    n ≤ o.after key ∨ (∃ d ∈ s.mail.seen id, onTopic key d = true ∧ d.seq = n) ∨
      ∃ l ∈ s.mail.lost, l.sub = id ∧ onTopic key l.delivery = true ∧ l.delivery.seq = n := by
  by_cases after : o.after key < n
  · obtain ⟨d, pushed, on, seq⟩ := inv.pushed_of_due opened due after
    by_cases seen : d ∈ s.mail.seen id
    · exact .inr (.inl ⟨d, seen, on, seq⟩)
    · obtain ⟨l, filtered, same⟩ := mem_map.mp ((inv.accounted id).mem_lost pushed seen)
      obtain ⟨lost, sub⟩ := mem_filter.mp filtered
      subst same
      exact .inr (.inr ⟨l, lost, of_decide_eq_true sub, on, seq⟩)
  · exact .inl (Nat.le_of_not_lt after)

/-- A delivery is a reading of the subscriber's project or of one a grant of that subscribe covers, of the
declared schema, by an instance registered with it; and every seq that is missing was there before or is among
the counted drops. -/
theorem local_isolated (env : Env) (acts : List Act)
    (along : Along (step env) (fun s act => inForce s act = true) State.new acts) :
    Isolated (run (step env) State.new acts) := by
  have inv : Inv (run (step env) State.new acts) :=
    run_keeps (fun s act (inv : Inv s) ok => inv.step ok (step_change env s act)) Inv.new along
  refine ⟨?_, inv.delivered.rising, fun _ _ _ _ opened due => inv.delivered.missing opened due, ?_⟩
  · intro id d seen
    have pushed := (inv.delivered.accounted id).inOrder.subset seen
    obtain ⟨o, p, opened, listed, carries, permitted⟩ := inv.delivered.permitted id d pushed
    exact ⟨o, p, opened, listed, carries, permitted, inv.published p listed⟩
  · intro key t found
    simpa [found] using inv.delivered.drops key

/-! Two cogs of different projects: the second reads the first under a grant, with room
for one reading. -/

def lending : BusPolicy := ⟨fun _ => none, fun _ => [⟨"p", none⟩]⟩

def lent : List Act :=
  [.register sensor tokenA, .register reader tokenB, .hello tokenA none, .hello tokenB none,
    .declare 1 AllowAll [⟨"temp", "senml.v1", .reading⟩] [], .publish 1 AllowAll (sample 10) 11 none,
    .subscribe 2 lending "temp/*" "senml.v1" 0, .publish 1 AllowAll (sample 20) 21 none,
    .publish 1 AllowAll (sample 30) 31 none]

theorem local_isolated_lent : Isolated (run (step bench) State.new lent) ∧
    ((run (step bench) State.new lent).mail.seen 1).map (·.seq) = [3] ∧
    (run (step bench) State.new lent).mail.lost.map (fun l => (l.sub, l.delivery.seq, l.on)) =
    [(1, 2, ("temp", "k1"))] :=
  ⟨local_isolated bench lent (by decide +kernel), by decide +kernel, by decide +kernel⟩

/-- The instance is revoked and registered again without its output, while its connection
is still open with what it declared before. -/
def replaced : List Act :=
  [.register sensor tokenA, .hello tokenA none, .declare 1 AllowAll [⟨"temp", "senml.v1", .reading⟩] [],
    .register { reader with projectId := some "p" } tokenB, .hello tokenB none,
    .subscribe 2 AllowAll "temp/*" "senml.v1" 0, .revoke "a", .register { sensor with outputs := [] } tokenC,
    .publish 1 AllowAll (sample 10) 11 none]

theorem replaced_seen :
    ((run (step bench) State.new replaced).mail.seen 1).map (fun d => (d.topic, d.seq)) = [("temp/k1", 1)] := by
  decide +kernel

theorem replaced_under :
    (run (step bench) State.new replaced).published.map (fun p => p.under.map (·.outputs)) = [some []] := by
  decide +kernel

/-- Its reading is taken and delivered, although the registration it goes out under has no
outputs at all. -/
theorem published_undeclared : ¬Isolated (run (step bench) State.new replaced) := by
  intro isolated
  obtain ⟨d, seen, _⟩ : ∃ d ∈ (run (step bench) State.new replaced).mail.seen 1, (d.topic, d.seq) = ("temp/k1", 1) := by
    rw [← mem_map, replaced_seen]
    exact mem_singleton.mpr rfl
  obtain ⟨o, p, _, listed, _, _, registered⟩ := isolated.origin 1 d seen
  have under : p.under.map (·.outputs) = some [] := by
    have there := mem_map_of_mem (f := fun p : Publication => p.under.map (·.outputs)) listed
    rw [replaced_under] at there
    exact mem_singleton.mp there
  obtain ⟨spec, here, none_⟩ := Option.map_eq_some_iff.mp under
  obtain ⟨_, output, declared, _⟩ := registered spec here
  rw [none_] at declared
  cases declared

end Weftos.Bus.Isolation
