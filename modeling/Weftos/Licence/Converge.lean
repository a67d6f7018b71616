import Weftos.Licence.OneBinding

/-! From the Seed to a grant store: whatever order the released grants arrive in, and however often,
the store ends with the newest grant of each cog version. -/

namespace Weftos.Licence.Converge
open Lib Lib.Bytes Lib.Outcome Wire Store OneBinding List Numbering.Sample

section
variable {P : Type} [DecidableEq P]

abbrev Delivery (P : Type) := Env × SignedEnvelope P

def deliver (o : Outside P) (s : CheckoutGrantStore P) (d : Delivery P) : CheckoutGrantStore P :=
  (s.acceptGrant o d.1 d.2).2

/-- The node is in the mesh of its binding, the key is not revoked, the write succeeds and the clock
is not behind the issue. -/
structure Fit (o : Outside P) (b : BindingRecord) (d : Delivery P) : Prop where
  mesh : d.1.localMesh = some b.meshId
  meshAgain : d.1.localAgain = some b.meshId
  unrevoked : d.1.keyRevoked b.grantPubkey = false
  written : d.1.write = none
  clock : ∀ g, o.parseGrant d.2.payload = .ok g → g.issuedAt ≤ d.1.now

structure BoundTo (key : Octets) (held : Held P BindingRecord) (inner : Store.Inner P) : Prop where
  clean : inner.poisoned = none
  binding : inner.binding = some held
  inForce : held.body.state = .bound
  decoded : hexDecodeExact 32 held.body.grantPubkey = some key

variable {o : Outside P} {key : Octets} {held : Held P BindingRecord} {past : List (Delivery P)}
  {inner : Store.Inner P} {d : Delivery P} {g : CheckoutGrant} {s : CheckoutGrantStore P}
  {names : List (String × String)}

theorem BoundTo.admit (bound : BoundTo key held inner) (fit : Fit o held.body d)
    (verified : verifyGrantSignature o d.2 key = .ok g) (mesh : g.meshId = held.body.meshId) :
    admitGrant o d.1 inner d.2 = .ok (held.body, g) := by
  have inEffect : bindingInEffect d.1 inner = .ok held.body := by
    unfold bindingInEffect
    rw [bound.clean]
    simp [require, ensure, fit.mesh, bound.binding, bound.inForce, bind, Except.bind, pure, Except.pure]
  simp only [admitGrant, verifyGrant, bind_ok_iff, require_ok_iff, ensure_ok_iff, pure_ok_iff]
  exact ⟨held.body, inEffect, key, bound.decoded, (), fit.unrevoked, held.body.meshId, fit.meshAgain, g,
    ⟨g, verified, (), mesh, rfl⟩, rfl⟩

omit [DecidableEq P] in
theorem le_effNow (inner : Store.Inner P) (now : Nat) (name : String) : now ≤ inner.effNow now name := le_max_left _ _

theorem accept_united {slot : Store.Slot P} {new : Held P CheckoutGrant} (clean : slot.conflicted = [])
    (verified : verifyGrantSignature o new.signed key = .ok new.body)
    (united : ∀ cur, slot.current = some cur → verifyGrantSignature o cur.signed key = .ok cur.body ∧
      cur.body.key = new.body.key ∧ (Unites o key cur.signed new.signed ∨ Unites o key new.signed cur.signed)) :
    (∃ outcome cur, slot.accept new = .kept outcome ∧ slot.current = some cur ∧ new.body.seq ≤ cur.body.seq) ∨
      slot.accept new = .placed (slot.place new) ∧ ∀ cur, slot.current = some cur → cur.body.seq < new.body.seq := by
  have fresh : new.body.seq ∉ slot.conflicted := by simp [clean]
  unfold Slot.accept
  rw [if_neg fresh]
  cases current : slot.current with
  | none => exact .inr ⟨rfl, fun cur here => by cases here⟩
  | some cur =>
    obtain ⟨verifiedCur, name, pair⟩ := united cur current
    dsimp only
    by_cases older : new.body.seq < cur.body.seq
    · rw [if_pos older]
      exact .inl ⟨.ignored, cur, rfl, rfl, older.le⟩
    rw [if_neg older]
    by_cases equal : new.body.seq = cur.body.seq
    · -- the numbers of one Seed are used once
      have payload : cur.signed.payload = new.signed.payload := by
        obtain forward | back := pair
        · exact (forward cur.body new.body verifiedCur verified name).2.1 equal.symm
        · exact ((back new.body cur.body verified verifiedCur name.symm).2.1 equal).symm
      rw [if_pos equal, if_pos payload]
      exact .inl ⟨.duplicate, cur, rfl, rfl, equal.le⟩
    · have newer : cur.body.seq < new.body.seq := by omega
      have subset : ∀ art ∈ cur.body.artifacts, art ∈ new.body.artifacts := by
        obtain forward | back := pair
        · exact (forward cur.body new.body verifiedCur verified name).2.2
        · have below := (back new.body cur.body verified verifiedCur name.symm).1
          omega
      have shape := (verifyGrantSignature_ok o verified).2
      have union : checkUnion cur.body new.body = .ok () :=
        carries_ok fun art listed => artifact_of_mem o shape (subset art listed)
      rw [if_neg equal, union]
      refine .inr ⟨rfl, ?_⟩
      intro other here
      obtain rfl : cur = other := Option.some.inj here
      exact newer

/-- The store after the deliveries `past`: each slot has the newest grant that arrived for it. -/
structure Newest (o : Outside P) (key : Octets) (held : Held P BindingRecord) (past : List (Delivery P))
    (inner : Store.Inner P) : Prop where
  bound : BoundTo key held inner
  distinct : (inner.slots.map (·.1)).Nodup
  known : ∀ name ∈ inner.slots.map (·.1), ∃ d ∈ past, ∃ g, verifyGrantSignature o d.2 key = .ok g ∧ g.key = name
  clean : ∀ name, (inner.slotAt name).conflicted = []
  newest : ∀ d ∈ past, ∀ g, verifyGrantSignature o d.2 key = .ok g →
    ∃ cur, (inner.slotAt g.key).current = some cur ∧ g.seq ≤ cur.body.seq
  arrived : ∀ name cur, (inner.slotAt name).current = some cur →
    (∃ d ∈ past, d.2 = cur.signed) ∧ verifyGrantSignature o cur.signed key = .ok cur.body ∧ cur.body.key = name

section
variable {inner' : Store.Inner P} (newest : Newest o key held past inner)
  (verified : verifyGrantSignature o d.2 key = .ok g) (binding : inner'.binding = inner.binding)
  (poisoned : inner'.poisoned = inner.poisoned)
include newest verified binding poisoned

theorem Newest.kept
    (present : ∃ cur, (inner.slotAt g.key).current = some cur ∧ g.seq ≤ cur.body.seq)
    (slots : inner'.slots = inner.slots) : Newest o key held (past ++ [d]) inner' := by
  have same : ∀ name, inner'.slotAt name = inner.slotAt name := by
    intro name
    rw [Inner.slotAt, Inner.slotAt, slots]
  constructor
  case bound =>
    exact ⟨poisoned.trans newest.bound.clean, binding.trans newest.bound.binding, newest.bound.inForce,
      newest.bound.decoded⟩
  case distinct => exact slots ▸ newest.distinct
  case known =>
    intro name listed
    obtain ⟨earlier, there, rest⟩ := newest.known name (slots ▸ listed)
    exact ⟨earlier, mem_append_left _ there, rest⟩
  case clean =>
    intro name
    rw [same]
    exact newest.clean name
  case newest =>
    intro other listed g' verified'
    rw [same]
    obtain before | last := mem_append.mp listed
    · exact newest.newest other before g' verified'
    · rw [mem_singleton.mp last] at verified'
      obtain rfl : g = g' := Except.ok.inj (verified.symm.trans verified')
      exact present
  case arrived =>
    intro name cur here
    rw [same] at here
    obtain ⟨⟨earlier, there, sent⟩, rest⟩ := newest.arrived name cur here
    exact ⟨⟨earlier, mem_append_left _ there, sent⟩, rest⟩

theorem Newest.placed
    (newer : ∀ cur, (inner.slotAt g.key).current = some cur → cur.body.seq < g.seq)
    (slots : inner'.slots = Table.insert inner.slots g.key ((inner.slotAt g.key).place ⟨d.2, g⟩)) :
    Newest o key held (past ++ [d]) inner' := by
  have own : inner'.slotAt g.key = (inner.slotAt g.key).place ⟨d.2, g⟩ := by
    rw [Inner.slotAt, slots, Table.lookup_insert_self]
    rfl
  have other : ∀ name, name ≠ g.key → inner'.slotAt name = inner.slotAt name := by
    intro name differ
    rw [Inner.slotAt, slots, Table.lookup_insert_other inner.slots _ differ]
    rfl
  constructor
  case bound =>
    exact ⟨poisoned.trans newest.bound.clean, binding.trans newest.bound.binding, newest.bound.inForce,
      newest.bound.decoded⟩
  case distinct =>
    rw [slots]
    exact Table.nodup_insert newest.distinct _ _
  case known =>
    intro name listed
    rw [slots, Table.insert, map_append, mem_append] at listed
    obtain before | last := listed
    · obtain ⟨entry, kept, rfl⟩ := mem_map.mp before
      obtain ⟨earlier, there, rest⟩ := newest.known entry.1 (mem_map_of_mem (mem_filter.mp kept).1)
      exact ⟨earlier, mem_append_left _ there, rest⟩
    · rw [map_cons, map_nil, mem_singleton] at last
      exact ⟨d, mem_append_right _ mem_cons_self, g, verified, last.symm⟩
  case clean =>
    intro name
    by_cases same : name = g.key
    · rw [same, own]
      exact newest.clean g.key
    · rw [other name same]
      exact newest.clean name
  case newest =>
    intro e listed g' verified'
    obtain before | last := mem_append.mp listed
    · obtain ⟨cur, here, below⟩ := newest.newest e before g' verified'
      by_cases same : g'.key = g.key
      · rw [same] at here ⊢
        rw [own]
        exact ⟨⟨d.2, g⟩, rfl, below.trans (newer cur here).le⟩
      · rw [other _ same]
        exact ⟨cur, here, below⟩
    · rw [mem_singleton.mp last] at verified'
      obtain rfl : g = g' := Except.ok.inj (verified.symm.trans verified')
      rw [own]
      exact ⟨⟨d.2, g⟩, rfl, le_rfl⟩
  case arrived =>
    intro name cur here
    by_cases same : name = g.key
    · rw [same, own] at here
      cases here
      exact ⟨⟨d, mem_append_right _ mem_cons_self, rfl⟩, verified, same.symm⟩
    · rw [other name same] at here
      obtain ⟨⟨earlier, there, sent⟩, rest⟩ := newest.arrived name cur here
      exact ⟨⟨earlier, mem_append_left _ there, sent⟩, rest⟩

end

theorem deliver_newest (newest : Newest o key held past s.inner) (fit : Fit o held.body d)
    (verified : verifyGrantSignature o d.2 key = .ok g) (mesh : g.meshId = held.body.meshId)
    (united : ∀ e ∈ past, Unites o key e.2 d.2 ∨ Unites o key d.2 e.2)
    (room : s.inner.slots.lookup g.key ≠ none ∨ s.inner.slots.length < MAX_GRANT_SLOTS) :
    (∃ outcome, (s.acceptGrant o d.1 d.2).1 = .ok outcome) ∧ Newest o key held (past ++ [d]) (deliver o s d).inner := by
  obtain ⟨text, shape⟩ := verifyGrantSignature_ok o verified
  have parsed : o.parseGrant d.2.payload = .ok g := text ▸ o.parseGrant_grantText g
  have timely : g.issuedAt ≤ saturatingAdd (s.inner.effNow d.1.now held.body.grantPubkey) GRANT_SKEW_SECS := by
    have clock := fit.clock g parsed
    have seen := le_effNow s.inner d.1.now held.body.grantPubkey
    have inRange := (checkShape_times o shape).2.1
    have bound : MAX_UNIX_TIME ≤ U64_MAX := by decide
    exact le_saturatingAdd (by omega) (inRange.trans bound)
  have admitted : Admitted o d.1 s d.2 held.body g := ⟨ newest.bound.admit fit verified mesh, timely, room⟩
  have ruling := @accept_united _ _ o key (s.inner.slotAt g.key) ⟨d.2, g⟩ (newest.clean g.key) verified (by
    intro cur here
    obtain ⟨⟨e, there, sent⟩, verifiedCur, name⟩ := newest.arrived g.key cur here
    exact ⟨verifiedCur, name, sent ▸ united e there⟩)
  unfold deliver
  rw [admitted.acceptGrant_eq, fit.written]
  obtain ⟨outcome, cur, kept, current, below⟩ | ⟨placed, newer⟩ := ruling
  · rw [kept]
    exact ⟨⟨outcome, rfl⟩, newest.kept verified rfl rfl ⟨cur, current, below⟩ rfl⟩
  · rw [placed]
    dsimp only
    split
    · exact ⟨⟨_, rfl⟩, newest.placed verified rfl rfl newer rfl⟩
    · exact ⟨⟨_, rfl⟩, newest.placed verified rfl rfl newer rfl⟩

theorem Newest.room (newest : Newest o key held past inner) (few : names.length ≤ MAX_GRANT_SLOTS)
    (listed : ∀ d ∈ past, ∀ g, verifyGrantSignature o d.2 key = .ok g → g.key ∈ names) {name : String × String}
    (own : name ∈ names) : inner.slots.lookup name ≠ none ∨ inner.slots.length < MAX_GRANT_SLOTS := by
  by_cases unknown : inner.slots.lookup name = none
  · right
    have absent : name ∉ inner.slots.map (·.1) := by
      intro there
      obtain ⟨entry, here, rfl⟩ := mem_map.mp there
      rw [Table.lookup_of_mem newest.distinct here] at unknown
      cases unknown
    have subset : name :: inner.slots.map (·.1) ⊆ names := by
      intro other there
      obtain rfl | known := mem_cons.mp there
      · exact own
      · obtain ⟨d, sent, g, verified, rfl⟩ := newest.known other known
        exact listed d sent g verified
    have bound := (subperm_of_subset (nodup_cons.mpr ⟨absent, newest.distinct⟩) subset).length_le
    rw [length_cons, length_map] at bound
    omega
  · exact .inl unknown

structure Sent (o : Outside P) (key : Octets) (held : Held P BindingRecord) (names : List (String × String))
    (deliveries : List (Delivery P)) : Prop where
  few : names.length ≤ MAX_GRANT_SLOTS
  genuine : ∀ d ∈ deliveries, ∃ g, verifyGrantSignature o d.2 key = .ok g ∧ g.meshId = held.body.meshId ∧ g.key ∈ names
  united : ∀ d ∈ deliveries, ∀ e ∈ deliveries, Unites o key d.2 e.2 ∨ Unites o key e.2 d.2
  fit : ∀ d ∈ deliveries, Fit o held.body d

theorem Sent.sublist
    (sent : Sent o key held names deliveries) (subset : fewer ⊆ deliveries) : Sent o key held names fewer where
  few := sent.few
  genuine d listed := sent.genuine d (subset listed)
  united d listed e there := sent.united d (subset listed) e (subset there)
  fit d listed := sent.fit d (subset listed)

theorem Sent.next (sent : Sent o key held names (past ++ [d])) (newest : Newest o key held past s.inner) :
    (∃ outcome, (s.acceptGrant o d.1 d.2).1 = .ok outcome) ∧ Newest o key held (past ++ [d]) (deliver o s d).inner := by
  have last : d ∈ past ++ [d] := mem_append_right _ mem_cons_self
  obtain ⟨g, verified, mesh, own⟩ := sent.genuine d last
  apply deliver_newest newest (sent.fit d last) verified mesh
  · intro e listed
    exact sent.united e (mem_append_left _ listed) d last
  · apply newest.room sent.few _ own
    intro e listed g' verified'
    obtain ⟨h, verifiedH, -, there⟩ := sent.genuine e (mem_append_left _ listed)
    obtain rfl : h = g' := Except.ok.inj (verifiedH.symm.trans verified')
    exact there

theorem newest_start (bound : BoundTo key held s.inner) (empty : s.inner.slots = []) :
    Newest o key held [] s.inner := by
  have nothing : ∀ name, s.inner.slotAt name = {} := by
    intro name
    rw [Inner.slotAt, empty]
    rfl
  constructor
  case bound => exact bound
  case distinct => simp [empty]
  case known => simp [empty]
  case clean => simp [nothing]
  case newest => simp
  case arrived => simp [nothing]

/-- After any deliveries the store has the newest grant of each cog version. -/
theorem run_newest (bound : BoundTo key held s.inner) (empty : s.inner.slots = [])
    (sent : Sent o key held names deliveries) :
    Newest o key held deliveries (Run.run (deliver o) s deliveries).inner := by
  induction deliveries using reverseRecOn with
  | nil => exact newest_start bound empty
  | append_singleton past d ih =>
    rw [Run.run_append]
    exact (sent.next (ih (sent.sublist (subset_append_left past [d])))).2

end

section
open Proxy
variable {P : Type} [DecidableEq P]

def Fetched (acts : List Act) (bytes : Octets) : Prop :=
  ∃ i clock cache bindWrite write, Act.finish i (.ok bytes) clock cache bindWrite write ∈ acts

/-- One Seed under one binding with at most one checkout in flight: whatever of its grants arrive at a store
bound to its key, in whatever order and however often, the newest grant of a cog version, once it has arrived,
is the current one. -/
theorem distribution_converges (o : Outside P) (cfg : Config) {files : Files} {b : BindingRecord} {secret : Octets}
    (bound : Bound files b secret) (one : cfg.limits.inFlight ≤ 1) (acts : List Act)
    (fixed : ∀ act ∈ acts, ∀ files, act ≠ .replaceFiles files)
    (noCollision : ∀ x y, Fetched acts x → Fetched acts y → o.sha256Hex x = o.sha256Hex y → x = y)
    (few : (Run.run (Seed.step o cfg) { files := files } acts).issues < 2 ^ 64)
    (store : CheckoutGrantStore P) (held : Held P BindingRecord)
    (boundTo : BoundTo (o.publicKey secret) held store.inner)
    (sameMesh : held.body.meshId = b.meshId) (empty : store.inner.slots = []) (deliveries : List (Delivery P))
    (released : ∀ d ∈ deliveries, d.2 ∈ (Run.run (Seed.step o cfg) { files := files } acts).released)
    (fit : ∀ d ∈ deliveries, Fit o held.body d) (names : List (String × String))
    (versions : names.length ≤ MAX_GRANT_SLOTS)
    (listed : ∀ d ∈ deliveries, ∀ g, o.parseGrant d.2.payload = .ok g → g.key ∈ names) :
    (∀ past d later, deliveries = past ++ d :: later →
      ∃ outcome, ((Run.run (deliver o) store past).acceptGrant o d.1 d.2).1 = .ok outcome) ∧
    ∀ d ∈ deliveries, ∀ g, o.parseGrant d.2.payload = .ok g →
      (∀ signed ∈ (Run.run (Seed.step o cfg) { files := files } acts).released, ∀ g',
        o.parseGrant signed.payload = .ok g' → g'.key = g.key → g'.seq ≤ g.seq) →
      ∃ cur, ((Run.run (deliver o) store deliveries).inner.slotAt g.key).current = some cur ∧ cur.body = g ∧
        cur.signed.payload = d.2.payload := by
  have settled := @run_settled _ _ _ _ _ o cfg (Fetched acts) acts bound one noCollision
    ⟨fixed, fun i bytes clock cache bindWrite write there => ⟨i, clock, cache, bindWrite, write, there⟩⟩ few
  obtain ⟨genuine, united⟩ := settled.released
  have parse : ∀ {signed : SignedEnvelope P} {g}, verifyGrantSignature o signed (o.publicKey secret) = .ok g →
      o.parseGrant signed.payload = .ok g :=
    fun verified => (verifyGrantSignature_ok o verified).1 ▸ o.parseGrant_grantText _
  have sent : Sent o (o.publicKey secret) held names deliveries := by
    refine ⟨versions, ?_, ?_, fit⟩
    · intro d there
      obtain ⟨g, verified, mesh⟩ := genuine d.2 (released d there)
      exact ⟨g, verified, mesh.trans sameMesh.symm, listed d there g (parse verified)⟩
    · intro d there e elsewhere
      exact united d.2 (released d there) e.2 (released e elsewhere)
  constructor
  · rintro past d later rfl
    have front : past ⊆ past ++ d :: later := subset_append_left past _
    have upTo : past ++ [d] ⊆ past ++ d :: later := by simp
    have newest := run_newest boundTo empty (sent.sublist front)
    exact ((sent.sublist upTo).next newest).1
  · intro d there g parsed highest
    have newest := run_newest boundTo empty sent
    obtain ⟨h, verified, -⟩ := genuine d.2 (released d there)
    obtain rfl : g = h := Except.ok.inj (parsed.symm.trans (parse verified))
    obtain ⟨cur, here, above⟩ := newest.newest d there g verified
    obtain ⟨⟨e, elsewhere, same⟩, verifiedCur, name⟩ := newest.arrived g.key cur here
    have releasedCur : cur.signed ∈ (Run.run (Seed.step o cfg) { files := files } acts).released :=
      same ▸ released e elsewhere
    have below := highest cur.signed releasedCur cur.body (parse verifiedCur) name
    have equal : cur.body.seq = g.seq := Nat.le_antisymm below above
    have payload : cur.signed.payload = d.2.payload := by
      obtain forward | back := united cur.signed releasedCur d.2 (released d there)
      · exact (forward cur.body g verifiedCur verified name).2.1 equal
      · exact ((back g cur.body verified verifiedCur name.symm).2.1 equal.symm).symm
    refine ⟨cur, here, ?_, payload⟩
    have again := parse verifiedCur
    rw [payload] at again
    exact Except.ok.inj (again.symm.trans parsed)

end

/-! ### A sample -/

namespace Sample
open Proxy Member.Sample

def held : Held Text BindingRecord := ⟨signedBinding binding, binding⟩

def store : CheckoutGrantStore Text := { inner := { binding := some held } }

def acts : List Act := .start .done :: checkout clock [1] ++
  [renewal (clock + 10) [] .done, renewal (clock + 20) [("cog", "1")] .done]

def released : List (SignedEnvelope Text) := (Run.run (Seed.step outside (config 1)) { files := files } acts).released

def deliveries : List (Delivery Text) := (released.reverse ++ released).map fun signed => (env (clock + 30), signed)

def overlapping : List Act := [.start .done, .begin request clock, .begin request clock,
  .look 0 (.ok entitlement) (.ok (entry (outside.sha256Hex [1]))) fun _ => true,
  .look 1 (.ok entitlement) (.ok (entry (outside.sha256Hex [2]))) fun _ => true,
  .finish 0 (.ok [1]) clock none .done .done, .finish 0 (.ok [2]) clock none .done .done]

end Sample
open Sample Member.Sample

/-- The grants arrive newest first and then again in order; the withdrawal is current in the end. -/
theorem distribution_converges_reversed :
    deliveries.length = 6 ∧ ∃ cur, ((Run.run (deliver outside) store
      deliveries).inner.slotAt ("cog", "1")).current = some cur ∧ cur.body.isWithdrawal = true := by
  have parsed : ∀ signed ∈ released, ∀ g, outside.parseGrant signed.payload = .ok g →
      g.key = ("cog", "1") ∧ g.issuedAt ≤ clock + 30 ∧ g.seq ≤ 3 := by
    decide +kernel
  have sent : ∀ d ∈ deliveries, d.2 ∈ released ∧ d.1 = env (clock + 30) := by
    intro d there
    obtain ⟨signed, listed, rfl⟩ := mem_map.mp there
    exact ⟨by simpa using listed, rfl⟩
  have fit : ∀ d ∈ deliveries, Fit outside held.body d := by
    rintro ⟨e, signed⟩ there
    obtain ⟨listed, surroundings⟩ := sent (e, signed) there
    obtain rfl : e = env (clock + 30) := surroundings
    exact ⟨rfl, rfl, rfl, rfl, fun g parse => (parsed signed listed g parse).2.1⟩
  have downloads : ∀ x, Fetched acts x → x = [1] := by
    rintro x ⟨i, clock, cache, bindWrite, write, there⟩
    simp only [acts, checkout, renewal, cons_append, nil_append,
      mem_cons, not_mem_nil, or_false, reduceCtorEq, false_or, Proxy.Act.finish.injEq, Except.ok.injEq] at there
    exact there.2.1
  have converged := (distribution_converges outside (config 1)
    (⟨rfl, rfl, rfl⟩ : Bound files binding grantKey) (by decide) acts
    (by simp [acts, checkout, renewal])
    (fun x y first second _ => (downloads x first).trans (downloads y second).symm) (by decide +kernel)
    store held ⟨rfl, rfl, rfl, by decide +kernel⟩ rfl rfl deliveries (fun d there => (sent d there).1)
    fit [("cog", "1")] (by decide) (fun d there g parse => by simp [(parsed d.2 (sent d there).1 g parse).1])).2
  have last : ∃ d ∈ deliveries, ∃ g, outside.parseGrant d.2.payload = .ok g ∧
      g.seq = 3 ∧ g.isWithdrawal = true := by
    decide +kernel
  obtain ⟨d, there, g, parse, number, restricts⟩ := last
  obtain ⟨cur, here, rfl, -⟩ := converged d there g parse fun signed listed g' parse' _ =>
    (parsed signed listed g' parse').2.2.trans number.ge
  rw [(parsed d.2 (sent d there).1 _ parse).1] at here
  exact ⟨by decide +kernel, cur, here, restricts⟩

/-- With two checkouts in flight the second one replaces the binary of the first, and its grant, the
newest, is refused. -/
theorem republished_in_flight :
    let released := (Run.run (Proxy.Seed.step outside (config 2))
      { files := files } overlapping).released
    released.map (fun signed => (outside.parseGrant signed.payload).toOption.map (·.seq)) = [some 1, some 2] ∧
      ∀ signed ∈ released.getLast?, ((Run.run (deliver outside) store
          (released.dropLast.map fun signed => (env clock, signed))).acceptGrant
            outside (env clock) signed).1 =
        .error (.changesArtifact "aarch64") := by
  decide +kernel

end Weftos.Licence.Converge
