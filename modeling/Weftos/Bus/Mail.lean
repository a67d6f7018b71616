import Weftos.Bus.Change

/-! The queues of the subscriptions: what one reading's fan-out does to all of them, and
that every delivery stays accounted for. -/

namespace Weftos.Bus.Broker
open Lib.DropOldest Bus.Types List

def onTopic (key : Key) (d : Delivery) : Bool := d.topic = key.topic && d.sourceId = key.2

theorem Key.ext_topic {key other : Key} (topic : key.topic = other.topic) (source : key.2 = other.2) : key = other := by
  obtain ⟨kind, src⟩ := key
  obtain ⟨kind', src'⟩ := other
  obtain rfl : src = src' := source
  have same : toString kind = toString kind' := by simpa [Key.topic] using topic
  rw [show kind = kind' from same]

theorem onTopic_delivery (env : Env) (s : State) (p : Put) (recvNs id : Nat) (key : Key) :
    onTopic key { s.delivery env p recvNs with sub := id } = decide (p.reading.key = key) := by
  unfold onTopic State.delivery
  by_cases same : p.reading.key = key
  · subst same
    simp [Reading.key]
  · rw [decide_eq_false same, Bool.and_eq_false_imp]
    intro topic
    rw [decide_eq_false_iff_not]
    intro source
    exact same (Key.ext_topic (of_decide_eq_true topic) source)

/-! ### Accounts -/

def Mail.lostOf (m : Mail) (id : Nat) : List Delivery := (m.lost.filter (·.sub = id)).map (·.delivery)

def Mail.seen (m : Mail) (id : Nat) : List Delivery := m.taken id ++ (m.queues id).buf

def Mail.Accounted (m : Mail) (id : Nat) : Prop := Account (m.queues id) (m.pushed id) (m.taken id) (m.lostOf id)

def Mail.dropsOn (m : Mail) (key : Key) : Nat := m.lost.countP (·.on = key)

theorem Mail.lostOf_push (m : Mail) (on : Key) (id other : Nat) (d : Delivery) :
    (m.push on id d).lostOf other = if other = id then m.lostOf id ++ (m.queues id).oldest else m.lostOf other := by
  unfold Mail.lostOf Mail.push
  by_cases same : other = id
  · subst same
    simp [filter_map, Function.comp_def]
  · have none_ : (((m.queues id).oldest.map (⟨id, ·, on⟩ : Delivery → Loss)).filter (·.sub = other)) = [] := by
      simp [filter_map, Function.comp_def, Ne.symm same]
    rw [filter_append, none_, append_nil, if_neg same]

theorem Mail.Accounted.push {m : Mail} (accounted : m.Accounted other) (on : Key) (id : Nat)
    (d : Delivery) : (m.push on id d).Accounted other := by
  unfold Mail.Accounted
  rw [Mail.lostOf_push]
  by_cases same : other = id
  · subst same
    simpa [Mail.push] using Account.push accounted d
  · rw [if_neg same]
    simp only [Mail.push, Function.update_of_ne same]
    exact accounted

theorem Mail.Accounted.drain {m : Mail} (accounted : m.Accounted other) (id : Nat) : (m.drain id).Accounted other := by
  unfold Mail.Accounted
  by_cases same : other = id
  · subst same
    simpa [Mail.drain, Mail.lostOf] using Account.drain accounted
  · simp only [Mail.drain, Function.update_of_ne same]
    exact accounted

theorem Mail.Accounted.open {m : Mail} (accounted : m.Accounted other) {id : Nat} (cap : Nat)
    (unused : m.pushed id = []) : (m.open id cap).Accounted other := by
  by_cases same : other = id
  · subst same
    have empty := accounted.complete
    rw [unused, nil_perm, append_eq_nil_iff, append_eq_nil_iff] at empty
    show Account (Function.update m.queues other (.new cap) other) (m.pushed other) (m.taken other) (m.lostOf other)
    rw [Function.update_self, unused, empty.1, empty.2.1]
    exact .new cap
  · simp only [Mail.Accounted, Mail.open, Function.update_of_ne same]
    exact accounted

theorem Mail.dropsOn_push (m : Mail) (on key : Key) (id : Nat) (d : Delivery) :
    (m.push on id d).dropsOn key =
      m.dropsOn key + if key = on then (if (m.queues id).full then 1 else 0) else 0 := by
  unfold Mail.dropsOn Mail.push
  rw [countP_append, countP_map, ← (m.queues id).oldest_length]
  by_cases same : key = on
  · subst same
    simp [Function.comp_def]
  · simp [Function.comp_def, same, Ne.symm same]

/-! ### Fan-out -/

theorem matches_written {s : State} {sub : Sub} (found : s.topics p.reading.key = some t) :
    sub.matches p.reading.key (s.written p) = sub.matches p.reading.key t := by
  simp only [Sub.matches, State.written, State.topicOr, found, Option.getD_some]

/-- What a fan-out does: `hit` are the subscriptions that get the reading. -/
structure Fanned (key : Key) (d : Delivery) (hit : Nat → Prop) (before after : Mail × Nat) : Prop where
  pushed : ∀ id, hit id → after.1.pushed id = before.1.pushed id ++ [{ d with sub := id }]
  others : ∀ id, ¬hit id → after.1.pushed id = before.1.pushed id
  accounted : (∀ id, before.1.Accounted id) → ∀ id, after.1.Accounted id
  counted : after.2 + before.1.dropsOn key = before.2 + after.1.dropsOn key
  elsewhere : ∀ other, other ≠ key → after.1.dropsOn other = before.1.dropsOn other

def Reached (key : Key) (t : Topic) (subs : List (Nat × Sub)) (id : Nat) : Prop :=
  ∃ sub, (id, sub) ∈ subs ∧ sub.matches key t = true

theorem fan_fanned (key : Key) (t : Topic) (d : Delivery) (acc : Mail × Nat) (entry : Nat × Sub) :
    Fanned key d (Reached key t [entry]) acc (fan key t d acc entry) := by
  by_cases hit : entry.2.matches key t = true
  · have reached (id : Nat) : Reached key t [entry] id ↔ id = entry.1 := by
      constructor
      · rintro ⟨sub, listed, _⟩
        exact congrArg Prod.fst (mem_singleton.mp listed)
      · rintro rfl
        exact ⟨entry.2, mem_singleton.mpr rfl, hit⟩
    rw [fan, if_pos hit]
    refine ⟨?_, ?_, ?_, ?_, ?_⟩
    · intro id reachedId
      obtain rfl := (reached id).mp reachedId
      exact Function.update_self ..
    · intro id missed
      exact Function.update_of_ne (fun same => missed ((reached id).mpr same)) ..
    · exact fun accounted id => (accounted id).push ..
    · rw [Mail.dropsOn_push, if_pos rfl]
      omega
    · intro other different
      rw [Mail.dropsOn_push, if_neg different, Nat.add_zero]
  · have missed (id : Nat) : ¬Reached key t [entry] id := by
      rintro ⟨sub, listed, hits⟩
      rw [← mem_singleton.mp listed] at hit
      exact hit hits
    rw [fan, if_neg hit]
    exact ⟨fun id reached => absurd reached (missed id), fun _ _ => rfl, id, rfl, fun _ _ => rfl⟩

theorem foldl_fan_pushed (key : Key) (t : Topic) (d : Delivery) (subs : List (Nat × Sub)) (acc : Mail × Nat) {id : Nat}
    (missed : ¬Reached key t subs id) : (subs.foldl (fan key t d) acc).1.pushed id = acc.1.pushed id := by
  induction subs generalizing acc with
  | nil => rfl
  | cons entry subs ih =>
    have here : ¬Reached key t [entry] id := by
      rintro ⟨sub, listed, hit⟩
      exact missed ⟨sub, mem_cons.mpr (.inl (mem_singleton.mp listed)), hit⟩
    have later : ¬Reached key t subs id := fun ⟨sub, listed, hit⟩ => missed ⟨sub, mem_cons_of_mem _ listed, hit⟩
    exact (ih _ later).trans ((fan_fanned key t d acc entry).others id here)

theorem foldl_fanned (key : Key) (t : Topic) (d : Delivery) (subs : List (Nat × Sub)) (acc : Mail × Nat)
    (ids : (subs.map (·.1)).Nodup) :
    Fanned key d (Reached key t subs) acc (subs.foldl (fan key t d) acc) := by
  induction subs generalizing acc with
  | nil =>
    have nobody (id : Nat) : ¬Reached key t [] id := by
      rintro ⟨_, listed, _⟩
      cases listed
    exact ⟨fun id reached => absurd reached (nobody id), fun _ _ => rfl, id, rfl, fun _ _ => rfl⟩
  | cons entry subs ih =>
    rw [map_cons, nodup_cons] at ids
    have first := fan_fanned key t d acc entry
    have rest := ih (fan key t d acc entry) ids.2
    have split (id : Nat) : Reached key t (entry :: subs) id ↔ Reached key t [entry] id ∨ Reached key t subs id := by
      simp only [Reached, mem_cons, not_mem_nil, or_false, or_and_right, exists_or]
    -- the ids differ, so what the first one reached the others do not
    have once (id : Nat) (here : Reached key t [entry] id) : ¬Reached key t subs id := by
      rintro ⟨sub, listed, _⟩
      obtain ⟨_, same, _⟩ := here
      have head : id = entry.1 := congrArg Prod.fst (mem_singleton.mp same)
      exact ids.1 (head ▸ mem_map_of_mem listed)
    rw [foldl_cons]
    refine ⟨?_, ?_, ?_, ?_, ?_⟩
    · intro id reached
      rcases (split id).mp reached with here | later
      · rw [rest.others id (once id here), first.pushed id here]
      · rw [rest.pushed id later, first.others id fun here => once id here later]
    · exact fun id missed => foldl_fan_pushed key t d (entry :: subs) acc missed
    · exact fun accounted => rest.accounted (first.accounted accounted)
    · have one := first.counted
      have more := rest.counted
      omega
    · intro other different
      rw [rest.elsewhere other different, first.elsewhere other different]

end Weftos.Bus.Broker
