import Weftos.Lib.Memo
import Weftos.Lib.Run
import Weftos.Resource.Permission

/-! When the decision cache of a `CapabilityChecker` cannot be seen. A key of the cache has no role in it, a
new policy drops only the entries of its own resource, and nothing drops one when a certificate expires. -/

namespace Weftos.Resource.Cache
open Lib Lib.Bytes Lib.Run Chain.Event
open Resource.Path Delegation Permission List CapabilityChecker

structure World where
  checker : CapabilityChecker
  now : Timestamp

inductive Act where
  | addPolicy (resource : ResourceId) (policy : AclPolicy)
  | grant (resource : ResourceId) (principal : Principal) (action : Action)
  | deny (resource : ResourceId) (principal : Principal) (action : Action)
  | addDelegation (resource : ResourceId) (cert : DelegationCert)
  | revokeDelegation (resource : ResourceId) (grantee : Principal)
  | revokeDelegationEverywhere (grantee : Principal)
  | pruneDelegations (now : Timestamp)
  | addConsentPolicy (policy : ConsentPolicy)
  | setRiskScore (principal : Principal) (risk : RiskScore)
  | check (principal : Principal) (role : Role) (action : Action) (resource : ResourceId)
  | tick (now : Timestamp)

section
variable (host : Host)

def World.check (w : World) (principal : Principal) (role : Role) (action : Action) (resource : ResourceId) :
    Decision × CapabilityChecker := w.checker.checkPermission host principal role action resource w.now

def World.evaluate (w : World) (principal : Principal) (role : Role) (action : Action) (resource : ResourceId) :
    Decision := w.checker.evaluateUncached host principal role action resource w.now

def step (w : World) : Act → World
  | .addPolicy resource policy => { w with checker := w.checker.addPolicy resource policy }
  | .grant resource principal action => { w with checker := w.checker.grant resource principal action }
  | .deny resource principal action => { w with checker := w.checker.deny resource principal action }
  | .addDelegation resource cert => { w with checker := w.checker.addDelegation resource cert }
  | .revokeDelegation resource grantee => { w with checker := (w.checker.revokeDelegation resource grantee).1 }
  | .revokeDelegationEverywhere grantee => { w with checker := (w.checker.revokeDelegationEverywhere grantee).1 }
  | .pruneDelegations now => { w with checker := (w.checker.pruneDelegations now).1 }
  | .addConsentPolicy policy => { w with checker := w.checker.addConsentPolicy policy }
  | .setRiskScore principal risk => { w with checker := w.checker.setRiskScore principal risk }
  | .check principal role action resource => { w with checker := (w.check host principal role action resource).2 }
  | .tick now => { w with now }

end

/-! ### What an evaluation reads -/

variable {α : Type} {at_ : ResourceId} {grantee : Principal}

section
variable {host : Host} {c c' : CapabilityChecker} {principal : Principal} {role : Role} {action : Action}
  {resource : ResourceId} {now now' : Timestamp}

def certsFor (c : CapabilityChecker) (principal : Principal) (rid : ResourceId) : List DelegationCert :=
  ((c.delegations.lookup rid).getD []).filter fun cert => cert.grantee = principal.asStr

theorem delegated_eq (host : Host) (c : CapabilityChecker) (principal : Principal) (resource : ResourceId)
    (now : Timestamp) : c.delegated host principal resource now = resource.toRoot.any fun rid =>
      (certsFor c principal rid).any fun cert =>
        resourceInScope resource cert.resource && (cert.validate host now).isOk := by
  rw [delegated]
  congr 1
  funext rid
  rw [certsFor, any_filter]
  congr 1
  funext cert
  rw [Bool.and_assoc]

theorem delegated_congr (same : ∀ rid, certsFor c' principal rid = certsFor c principal rid) :
    c'.delegated host principal resource now = c.delegated host principal resource now := by
  rw [delegated_eq, delegated_eq]
  congr 1
  funext rid
  rw [same rid]

theorem evaluate_congr (delegated : c'.delegated host principal resource now' = c.delegated host principal resource now)
    (ruled : c'.ruled principal role action resource = c.ruled principal role action resource)
    (enabled : c'.consentEnabled = c.consentEnabled)
    (consented : c'.consented principal action = c.consented principal action) :
    c'.evaluateUncached host principal role action resource now' =
      c.evaluateUncached host principal role action resource now := by
  rw [evaluateUncached, evaluateUncached, delegated, ruled, enabled, consented]

theorem lookup_pushAt (table : List (ResourceId × List α)) (at_ rid : ResourceId) (item : α) :
    ((pushAt table at_ item).lookup rid).getD [] =
      (table.lookup rid).getD [] ++ if rid = at_ then [item] else [] := by
  rw [pushAt]
  by_cases here : rid = at_
  · rw [here, Table.lookup_insert_self, if_pos rfl]
    rfl
  · rw [Table.lookup_insert_other _ _ here, if_neg here, append_nil]

theorem findSome_congr {β : Type} {f g : α → Option β} {items : List α} (agree : ∀ a ∈ items, f a = g a) :
    items.findSome? f = items.findSome? g := by
  induction items with
  | nil => rfl
  | cons a items ih =>
    rw [findSome?_cons, findSome?_cons, agree a mem_cons_self,
      ih fun b listed => agree b (mem_cons_of_mem a listed)]

theorem ruled_addPolicy {policy : AclPolicy}
    (apart : at_ ∈ resource.toRoot → policy.matches principal role action = false) :
    (c.addPolicy at_ policy).ruled principal role action resource = c.ruled principal role action resource := by
  rw [ruled, ruled]
  apply findSome_congr
  intro rid walked
  rw [addPolicy, lookup_pushAt, find?_append]
  by_cases here : rid = at_
  · have silent : find? (fun policy => policy.matches principal role action) [policy] = none := by
      rw [find?_singleton, apart (here ▸ walked)]
      rfl
    rw [if_pos here, silent, Option.or_none]
  · rw [if_neg here, find?_nil, Option.or_none]

theorem certsFor_addDelegation (other : cert.grantee ≠ principal.asStr) (rid : ResourceId) :
    certsFor (c.addDelegation at_ cert) principal rid = certsFor c principal rid := by
  rw [certsFor, addDelegation, lookup_pushAt, filter_append]
  split
  · rw [filter_singleton, decide_eq_false other]
    exact append_nil _
  · exact append_nil _

theorem certsFor_revokeDelegation (other : principal ≠ grantee) (rid : ResourceId) :
    certsFor (c.revokeDelegation at_ grantee).1 principal rid = certsFor c principal rid := by
  have texts : principal.asStr ≠ grantee.asStr := by
    intro same
    exact other (congrArg (Principal.mk ∘ Did.mk) same)
  change ((((c.revokeOn at_ grantee).1).lookup rid).getD []).filter _ = _
  rw [revokeOn]
  cases found : c.delegations.lookup at_ with
  | none => rfl
  | some certs =>
    by_cases here : rid = at_
    · subst here
      rw [Table.lookup_insert_self, certsFor, found]
      simp only [Option.getD_some, filter_filter]
      apply filter_congr
      intro cert _
      by_cases named : cert.grantee = principal.asStr
      · simp [named, texts]
      · simp [named]
    · rw [Table.lookup_insert_other _ _ here]
      rfl

theorem certsFor_revokeDelegation_none (none_ : (c.revokeDelegation at_ grantee).2 = 0) (rid : ResourceId) :
    certsFor (c.revokeDelegation at_ grantee).1 principal rid = certsFor c principal rid := by
  change (c.revokeOn at_ grantee).2 = 0 at none_
  change ((((c.revokeOn at_ grantee).1).lookup rid).getD []).filter _ = _
  rw [revokeOn] at none_ ⊢
  cases found : c.delegations.lookup at_ with
  | none => rfl
  | some certs =>
    rw [found] at none_
    have all : certs.filter (fun cert => cert.grantee ≠ grantee.asStr) = certs := by
      apply filter_sublist.eq_of_length_le
      exact Nat.sub_eq_zero_iff_le.mp none_
    by_cases here : rid = at_
    · subst here
      dsimp only
      rw [all, Table.lookup_insert_self, certsFor, found]
    · rw [Table.lookup_insert_other _ _ here]
      rfl

theorem mapLists_eq {f : List α → List α} {table : List (ResourceId × List α)}
    (same : ∀ entry ∈ table, f entry.2 = entry.2) : table.map (fun entry => (entry.1, f entry.2)) = table := by
  calc table.map (fun entry => (entry.1, f entry.2))
      = table.map id := map_congr_left fun entry listed => by rw [same entry listed]; rfl
    _ = table := map_id table

theorem everywhere_none (none_ : (c.revokeDelegationEverywhere grantee).2 = 0) :
    (c.revokeDelegationEverywhere grantee).1.delegations = c.delegations := by
  apply mapLists_eq
  intro entry listed
  calc entry.2.map (fun cert => if turns grantee cert then cert.revoke else cert)
      = entry.2.map id := by
        apply map_congr_left
        intro cert member
        have spared := countP_eq_zero.mp none_ cert (mem_flatMap.mpr ⟨entry, listed, member⟩)
        rw [if_neg spared]
        rfl
    _ = entry.2 := map_id _

theorem prune_none {at_ : Timestamp} (none_ : (c.pruneDelegations at_).2 = 0) :
    (c.pruneDelegations at_).1.delegations = c.delegations := by
  apply mapLists_eq
  intro entry listed
  apply filter_eq_self.mpr
  intro cert member
  have spared := countP_eq_zero.mp none_ cert (mem_flatMap.mpr ⟨entry, listed, member⟩)
  simpa using spared

theorem delegated_tick (steady : ∀ entry ∈ c.delegations, ∀ cert ∈ entry.2, cert.grantee = principal.asStr →
      cert.expired now' = cert.expired now) :
    c.delegated host principal resource now' = c.delegated host principal resource now := by
  rw [delegated_eq, delegated_eq]
  congr 1
  funext rid
  rw [Bool.eq_iff_iff, any_eq_true, any_eq_true]
  apply exists_congr
  intro cert
  apply and_congr_right
  intro member
  obtain ⟨held, named⟩ := mem_filter.mp member
  have kept : cert.expired now' = cert.expired now := by
    cases found : c.delegations.lookup rid with
    | none => simp [found] at held
    | some certs =>
      rw [found] at held
      exact steady (rid, certs) (Table.mem_of_lookup found) cert held (by simpa using named)
  rw [DelegationCert.validate, DelegationCert.validate, kept]

end

/-! ### Entries stay right -/

/-- A principal as `Principal::new` builds them: trimmed and not empty. -/
def Made (principal : Principal) : Prop := Principal.new principal.asStr = principal

/-- A policy put on a resource says nothing about what is cached below that resource. -/
def Unseen (roleOf : Principal → Role) (w : World) (resource : ResourceId) (policy : AclPolicy) : Prop :=
  ∀ entry ∈ w.checker.cache.entries, entry.1.resource ≠ resource → resource ∈ entry.1.resource.toRoot →
    policy.matches entry.1.principal (roleOf entry.1.principal) entry.1.action = false

/-- No certificate for a principal with cached decisions is expired at one of the times only. -/
def Lasting (w : World) (now : Timestamp) : Prop :=
  ∀ entry ∈ w.checker.cache.entries, ∀ held ∈ w.checker.delegations, ∀ cert ∈ held.2,
    cert.grantee = entry.1.principal.asStr → cert.expired now = cert.expired w.now

/-- Every principal is checked in one role, no new policy matches a question answered from further below, and no
certificate expires that an answer may rest on. -/
def Steady (roleOf : Principal → Role) (w : World) : Act → Prop
  | .addPolicy resource policy => Unseen roleOf w resource policy
  | .grant resource principal action => Unseen roleOf w resource (.allow principal action)
  | .deny resource principal action => Unseen roleOf w resource (.deny principal action)
  | .check principal role _ _ => Made principal ∧ role = roleOf principal
  | .tick now => Lasting w now
  | _ => True

variable {w : World}

section
variable {host : Host} {roleOf : Principal → Role}

def answer (host : Host) (roleOf : Principal → Role) (w : World) (key : CacheKey) : Decision :=
  w.evaluate host key.principal (roleOf key.principal) key.action key.resource

structure Inv (host : Host) (roleOf : Principal → Role) (w : World) : Prop where
  fresh : Memo.Fresh (answer host roleOf w) w.checker.cache.entries
  made : ∀ entry ∈ w.checker.cache.entries, Made entry.1.principal

/-- A step keeps the invariant when it only drops entries and leaves the answers to the
questions of those it keeps. -/
theorem Inv.changed (inv : Inv host roleOf w) (fewer : w'.checker.cache.entries ⊆ w.checker.cache.entries)
    (agree : ∀ entry ∈ w'.checker.cache.entries, Made entry.1.principal →
      answer host roleOf w' entry.1 = answer host roleOf w entry.1) :
    Inv host roleOf w' where
  fresh := inv.fresh.changed fewer fun entry kept => agree entry kept (inv.made entry (fewer kept))
  made entry kept := inv.made entry (fewer kept)

theorem Inv.addPolicy (inv : Inv host roleOf w) (unseen : Unseen roleOf w resource policy) :
    Inv host roleOf { w with checker := w.checker.addPolicy resource policy } := by
  apply inv.changed filter_sublist.subset
  intro entry kept _
  obtain ⟨listed, other⟩ := mem_filter.mp kept
  have other : entry.1.resource ≠ resource := by simpa using other
  exact evaluate_congr rfl (ruled_addPolicy fun walked => unseen entry listed other walked) rfl rfl

theorem Inv.addDelegation (inv : Inv host roleOf w) (resource : ResourceId) (cert : DelegationCert) :
    Inv host roleOf { w with checker := w.checker.addDelegation resource cert } := by
  apply inv.changed (filter_sublist.trans filter_sublist).subset
  intro entry kept made
  have spared := (mem_filter.mp (mem_filter.mp kept).1).2
  have other : cert.grantee ≠ entry.1.principal.asStr := by
    intro named
    rw [named, made] at spared
    simp at spared
  exact evaluate_congr (delegated_congr fun rid => certsFor_addDelegation other rid) rfl rfl rfl

theorem Inv.cleared (empty : w.checker.cache.entries = []) : Inv host roleOf w := by
  constructor
  · rw [empty]
    exact Memo.fresh_nil
  · rw [empty]
    exact fun _ => nofun

section
variable (inv : Inv host roleOf w)
include inv

theorem Inv.revokeDelegation (resource : ResourceId) (grantee : Principal) :
    Inv host roleOf { w with checker := (w.checker.revokeDelegation resource grantee).1 } := by
  have cache : (w.checker.revokeDelegation resource grantee).1.cache =
      if 0 < (w.checker.revokeDelegation resource grantee).2
        then (w.checker.cache.invalidatePrincipal grantee).invalidateResource resource else w.checker.cache := rfl
  by_cases removed : 0 < (w.checker.revokeDelegation resource grantee).2
  · rw [if_pos removed] at cache
    apply inv.changed
    · rw [cache]
      exact (filter_sublist.trans filter_sublist).subset
    · intro entry kept _
      rw [cache] at kept
      have other : entry.1.principal ≠ grantee := by
        simpa using (mem_filter.mp (mem_filter.mp kept).1).2
      exact evaluate_congr (delegated_congr fun rid => certsFor_revokeDelegation other rid) rfl rfl rfl
  · rw [if_neg removed] at cache
    have none_ := Nat.eq_zero_of_not_pos removed
    apply inv.changed
    · rw [cache]
      exact List.Subset.refl _
    · intro entry _ _
      exact evaluate_congr (delegated_congr fun rid => certsFor_revokeDelegation_none none_ rid) rfl rfl rfl

theorem Inv.clearing {delegations : List (ResourceId × List DelegationCert)} {count : Nat} {cache : EffectiveAclCache}
    (empty : cache.entries = []) (same : count = 0 → delegations = w.checker.delegations) :
    Inv host roleOf
      { w with checker :=
        { w.checker with delegations, cache := if 0 < count then cache else w.checker.cache } } := by
  by_cases some_ : 0 < count
  · rw [if_pos some_]
    exact .cleared empty
  · rw [if_neg some_, same (Nat.eq_zero_of_not_pos some_)]
    exact inv

theorem Inv.setRiskScore (principal : Principal) (risk : RiskScore) :
    Inv host roleOf { w with checker := w.checker.setRiskScore principal risk } := by
  apply inv.changed filter_sublist.subset
  intro entry kept _
  have other : entry.1.principal ≠ principal := by simpa using (mem_filter.mp kept).2
  have texts : entry.1.principal.asStr ≠ principal.asStr := by
    intro same
    exact other (congrArg (Principal.mk ∘ Did.mk) same)
  exact evaluate_congr rfl rfl rfl (by
    rw [CapabilityChecker.consented, CapabilityChecker.consented, CapabilityChecker.setRiskScore,
      Table.lookup_insert_other _ _ texts])

theorem Inv.check (made : Made principal) (action : Action) (resource : ResourceId) :
    (w.check host principal (roleOf principal) action resource).1 =
        w.evaluate host principal (roleOf principal) action resource ∧
      Inv host roleOf { w with checker := (w.check host principal (roleOf principal) action resource).2 } := by
  rw [World.check, checkPermission]
  cases found : w.checker.cache.get ⟨principal, resource, action⟩ with
  | some decision => exact ⟨inv.fresh.found found, inv⟩
  | none =>
    refine ⟨rfl, ?_, ?_⟩
    · change Memo.Fresh (answer host roleOf w) (Table.insert _ _ (answer host roleOf w ⟨principal, resource, action⟩))
      apply Memo.Fresh.insert
      split
      · exact Memo.fresh_nil
      · exact inv.fresh
    · intro entry kept
      obtain old | new := mem_append.mp kept
      · have listed := (mem_filter.mp old).1
        split at listed
        · exact absurd listed nofun
        · exact inv.made entry listed
      · rw [mem_singleton.mp new]
        exact made

theorem Inv.tick (lasting : Lasting w now) : Inv host roleOf { w with now } := by
  apply inv.changed
  · exact List.Subset.refl _
  · intro entry kept _
    exact evaluate_congr (delegated_tick (lasting entry kept)) rfl rfl rfl

theorem Inv.step (steady : Steady roleOf w act) :
    Inv host roleOf (step host w act) := by
  cases act with
  | addPolicy resource policy | grant | deny =>
    exact inv.addPolicy steady
  | addDelegation resource cert => exact inv.addDelegation resource cert
  | revokeDelegation resource grantee => exact inv.revokeDelegation resource grantee
  | revokeDelegationEverywhere grantee => exact inv.clearing rfl everywhere_none
  | pruneDelegations now => exact inv.clearing rfl prune_none
  | addConsentPolicy policy => exact .cleared rfl
  | setRiskScore principal risk => exact inv.setRiskScore principal risk
  | check principal role action resource =>
    obtain ⟨made, rfl⟩ := steady
    exact (inv.check made action resource).2
  | tick now => exact inv.tick steady

end

end

/-- The decision cache is invisible along every steady run from an empty cache: a check in the
principal's role returns what an evaluation at that moment returns. -/
theorem cache_invisible (host : Host) (roleOf : Principal → Role) (start : World)
    (empty : start.checker.cache.entries = []) (acts : List Act) (steady : Along (step host) (Steady roleOf) start acts)
    (principal : Principal) (made : Made principal) (action : Action) (resource : ResourceId) :
    ((run (step host) start acts).check host principal (roleOf principal) action resource).1 =
      (run (step host) start acts).evaluate host principal (roleOf principal) action resource := by
  have inv : Inv host roleOf (run (step host) start acts) :=
    run_keeps (fun _ _ inv steady => inv.step steady) (.cleared empty) steady
  exact (inv.check made action resource).1

/-! ### Worked runs -/

def sampleSign (key message : Octets) : Octets := leBytes 64 (ofLeBytes (key ++ message))

def sampleHost : Host where
  fromBytes _ := .ok ()
  verify key message signature := signature = sampleSign key message
  rfc3339 t := toString t.secs

def sampleKey : Octets := leBytes 32 1

def alice : Principal := .new "alice"

def bob : Principal := .new "bob"

theorem clock_range (secs : Nat) : minSecs ≤ (secs % 100 : Nat) ∧ ((secs % 100 : Nat) : Int) ≤ maxSecs := by
  unfold minSecs maxSecs
  omega

def clock (secs : Nat) : Timestamp :=
  ⟨(secs % 100 : Nat), 0, (clock_range secs).1, (clock_range secs).2, Timestamp.epoch.fraction⟩

def pass : DelegationCert :=
  .grant sampleHost "root" "alice" .root sampleKey (sampleSign sampleKey) (some (clock 10)) none (clock 0)

def morning : World := ⟨.new, clock 0⟩

def answers (acts : List Act) (role : Role) (resource : ResourceId) : Decision × Decision :=
  let w := run (step sampleHost) morning acts
  ((w.check sampleHost alice role .read resource).1, w.evaluate sampleHost alice role .read resource)

/-- A read that was allowed from the root stays allowed below a resource that now denies it. -/
def deniedAbove : List Act :=
  [.grant .root alice .read, .check alice .viewer .read ⟨"/a/b"⟩, .deny ⟨"/a"⟩ alice .read]

def otherRole : List Act :=
  [.addPolicy .root ⟨none, some .admin, .read, .allow⟩, .check alice .admin .read ⟨"/a"⟩]

def passExpired : List Act :=
  [.addDelegation .root pass, .check alice .viewer .read ⟨"/a"⟩, .tick (clock 11)]

theorem stale_decisions :
    answers deniedAbove .viewer ⟨"/a/b"⟩ = (.allow, .deny) ∧
      answers otherRole .viewer ⟨"/a"⟩ = (.allow, .deny) ∧
      answers passExpired .viewer ⟨"/a"⟩ = (.delegate, .deny) := by
  decide +kernel

instance (principal : Principal) : Decidable (Made principal) := inferInstanceAs (Decidable (_ = _))

instance (roleOf : Principal → Role) (w : World) (resource : ResourceId) (policy : AclPolicy) :
    Decidable (Unseen roleOf w resource policy) := inferInstanceAs (Decidable (∀ _ ∈ _, _))

instance (w : World) (now : Timestamp) : Decidable (Lasting w now) := inferInstanceAs (Decidable (∀ _ ∈ _, _))

instance (roleOf : Principal → Role) (w : World) : ∀ act, Decidable (Steady roleOf w act)
  | .addPolicy resource policy => inferInstanceAs (Decidable (Unseen roleOf w resource policy))
  | .grant resource principal action => inferInstanceAs (Decidable (Unseen roleOf w resource (.allow principal action)))
  | .deny resource principal action => inferInstanceAs (Decidable (Unseen roleOf w resource (.deny principal action)))
  | .check principal role _ _ => inferInstanceAs (Decidable (Made principal ∧ role = roleOf principal))
  | .tick now => inferInstanceAs (Decidable (Lasting w now))
  | .addDelegation .. | .revokeDelegation .. | .revokeDelegationEverywhere _ | .pruneDelegations _
  | .addConsentPolicy _ | .setRiskScore .. => .isTrue trivial

def steadyRun : List Act :=
  [.grant .root alice .read, .check alice .viewer .read ⟨"/a/b"⟩, .deny ⟨"/a"⟩ bob .read, .addDelegation .root pass,
    .check alice .viewer .read ⟨"/a/b"⟩, .tick (clock 10), .revokeDelegationEverywhere alice, .tick (clock 11)]

theorem cache_invisible_revoked :
    Along (step sampleHost) (Steady fun _ => .viewer) morning steadyRun ∧
      (answers steadyRun .viewer ⟨"/a/b"⟩).1 = .allow ∧
      (answers steadyRun .viewer ⟨"/a/b"⟩).1 = (answers steadyRun .viewer ⟨"/a/b"⟩).2 := by
  have steady : Along (step sampleHost) (Steady fun _ => .viewer) morning steadyRun := by decide +kernel
  have same := cache_invisible sampleHost (fun _ => .viewer) morning rfl steadyRun steady alice (by decide +kernel)
    .read ⟨"/a/b"⟩
  refine ⟨steady, ?_, same⟩
  decide +kernel

/-! ### Revocation -/

/-- Every certificate for the principal is revoked. -/
def Bare (principal : Principal) (c : CapabilityChecker) : Prop :=
  ∀ rid, ∀ cert ∈ certsFor c principal rid, cert.revoked = true

/-- The cache delegates to the principal only while there is a certificate for them. -/
def Backed (principal : Principal) (c : CapabilityChecker) : Prop :=
  Bare principal c → ∀ entry ∈ c.cache.entries, entry.1.principal = principal → entry.2 ≠ .delegate

def renews (principal : Principal) : Act → Bool
  | .addDelegation _ cert => cert.grantee = principal.asStr
  | _ => false

section
variable {host : Host} {c : CapabilityChecker} {principal : Principal} {w : World}

theorem Bare.evaluate (bare : Bare principal c) :
    c.evaluateUncached host principal role action resource now ≠ .delegate := by
  have none_ : c.delegated host principal resource now = false := by
    rw [delegated_eq, any_eq_false]
    intro rid _
    rw [Bool.not_eq_true, any_eq_false]
    intro cert held
    rw [DelegationCert.validate, bare rid cert held]
    simp [Outcome.ensure, bind, Except.bind, Except.isOk, Except.toBool]
  rw [evaluateUncached, none_]
  grind

theorem bare_congr (same : ∀ rid, certsFor c' principal rid = certsFor c principal rid) :
    Bare principal c' ↔ Bare principal c := by
  simp only [Bare, same]

theorem bare_everywhere (bare : principal ≠ grantee → Bare principal c) :
    Bare principal (c.revokeDelegationEverywhere grantee).1 := by
  intro rid cert held
  simp only [certsFor, revokeDelegationEverywhere, Table.lookup_mapValues] at held
  cases found : c.delegations.lookup rid with
  | none => simp [found] at held
  | some certs =>
    simp only [found, Option.map_some, Option.getD_some, mem_filter, mem_map, decide_eq_true_eq] at held
    obtain ⟨⟨old, listed, rfl⟩, named⟩ := held
    by_cases turns_ : turns grantee old = true
    · rw [if_pos turns_]
      rfl
    rw [if_neg turns_] at named ⊢
    by_cases same : principal = grantee
    · subst same
      simpa [turns, named] using turns_
    · exact bare same rid old (by simp [certsFor, found, listed, named])

theorem Bare.step (bare : Bare principal w.checker) (kept : renews principal act = false) :
    Bare principal (step host w act).checker := by
  cases act with
  | addDelegation resource cert =>
    exact (bare_congr fun rid => certsFor_addDelegation (by simpa [renews] using kept) rid).mpr bare
  | revokeDelegation resource grantee =>
    intro rid cert held
    have before := bare rid cert
    simp only [certsFor, Cache.step, CapabilityChecker.revokeDelegation, revokeOn] at held before
    cases found : w.checker.delegations.lookup resource with
    | none => grind
    | some certs => by_cases here : rid = resource <;> simp_all [Table.lookup_insert_other]
  | revokeDelegationEverywhere grantee => exact bare_everywhere fun _ => bare
  | pruneDelegations now =>
    intro rid cert held
    have before := bare rid cert
    simp only [certsFor, Cache.step, pruneDelegations, Table.lookup_mapValues] at held before
    cases found : w.checker.delegations.lookup rid <;> simp_all
  | check principal' role action resource =>
    rw [Cache.step, World.check, checkPermission]
    split <;> exact bare
  | _ => exact bare

theorem Backed.changed (backed : Backed principal c) (fewer : c'.cache.entries ⊆ c.cache.entries)
    (back : Bare principal c' → Bare principal c) : Backed principal c' :=
  fun bare entry kept => backed (back bare) entry (fewer kept)

theorem Backed.clearing {delegations : List (ResourceId × List DelegationCert)} {count : Nat}
    {cache : EffectiveAclCache}
    (backed : Backed principal c) (empty : cache.entries = []) (same : count = 0 → delegations = c.delegations) :
    Backed principal { c with delegations, cache := if 0 < count then cache else c.cache } := by
  by_cases some_ : 0 < count
  · intro bare entry kept
    simp [some_, empty] at kept
  · rw [if_neg some_, same (Nat.eq_zero_of_not_pos some_)]
    exact backed

theorem Backed.revokeDelegation (backed : Backed principal c) (resource : ResourceId) (grantee : Principal) :
    Backed principal (c.revokeDelegation resource grantee).1 := by
  have cache : (c.revokeDelegation resource grantee).1.cache = if 0 < (c.revokeDelegation resource grantee).2
      then (c.cache.invalidatePrincipal grantee).invalidateResource resource else c.cache := rfl
  split at cache
  next =>
    by_cases same : principal = grantee
    · intro _ entry kept named
      rw [cache] at kept
      have other := (mem_filter.mp (mem_filter.mp kept).1).2
      simp [named, same] at other
    · refine backed.changed ?_ (bare_congr fun rid => certsFor_revokeDelegation same rid).mp
      exact cache ▸ (filter_sublist.trans filter_sublist).subset
  next none_ =>
    refine backed.changed (cache ▸ List.Subset.refl _) (bare_congr fun rid => ?_).mp
    exact certsFor_revokeDelegation_none (Nat.eq_zero_of_not_pos none_) rid

theorem Backed.step (backed : Backed principal w.checker) (act : Act) : Backed principal (step host w act).checker := by
  cases act with
  | addPolicy | grant | deny | setRiskScore => exact backed.changed filter_sublist.subset id
  | addDelegation resource cert =>
    refine backed.changed (filter_sublist.trans filter_sublist).subset fun bare rid old held => bare rid old ?_
    change old ∈ (((pushAt w.checker.delegations resource cert).lookup rid).getD []).filter _
    rw [lookup_pushAt, filter_append]
    exact mem_append_left _ held
  | revokeDelegation resource grantee => exact backed.revokeDelegation resource grantee
  | revokeDelegationEverywhere grantee => exact backed.clearing rfl everywhere_none
  | pruneDelegations now => exact backed.clearing rfl prune_none
  | addConsentPolicy => exact fun _ _ => nofun
  | check other role action resource =>
    rw [Cache.step, World.check, checkPermission]
    split
    · exact backed
    · intro bare entry kept named
      obtain old | new := mem_append.mp kept
      · have listed := (mem_filter.mp old).1
        split at listed
        · exact absurd listed nofun
        · exact backed bare entry listed named
      · obtain rfl := mem_singleton.mp new
        obtain rfl : other = principal := named
        exact bare.evaluate (c := w.checker)
  | tick => exact backed

end

/-- After a revocation everywhere no check answers that the principal is delegated to, from the cache or not,
until there is a new certificate for them. -/
theorem revoked_until_renewed (host : Host) (start : World) (empty : start.checker.cache.entries = [])
    (before after : List Act) (grantee : Principal) (kept : ∀ act ∈ after, renews grantee act = false) (role : Role)
    (action : Action) (resource : ResourceId) :
    ((run (step host) start (before ++ .revokeDelegationEverywhere grantee :: after)).check host grantee role action
      resource).1 ≠ .delegate := by
  have backed (acts : List Act) : Backed grantee (run (step host) start acts).checker :=
    run_always (fun (w : World) act (backed : Backed grantee w.checker) => backed.step act) acts
      (by simp [Backed, empty])
  have bare : Bare grantee
    (run (step host) start (before ++ .revokeDelegationEverywhere grantee :: after)).checker := by
    rw [run_append, run_cons]
    exact run_keeps_mem (fun (w : World) act (bare : Bare grantee w.checker) (kept : renews grantee act = false) =>
      bare.step kept) (bare_everywhere (absurd rfl)) kept
  rw [World.check, checkPermission]
  split
  next decision found => exact backed _ bare _ (Table.mem_of_lookup found) rfl
  next => exact bare.evaluate

theorem revoked_until_renewed_cached :
    ((run (step sampleHost) morning [.addDelegation .root pass, .check alice .viewer .read .root]).check sampleHost
      alice
      .viewer .read .root).1 = .delegate ∧
    ((run (step sampleHost) morning ([.addDelegation .root pass, .check alice .viewer .read .root] ++
      .revokeDelegationEverywhere alice :: [.tick (clock 1)])).check sampleHost alice .viewer .read .root).1 ≠
        .delegate :=
  ⟨by decide +kernel, revoked_until_renewed sampleHost morning rfl _ _ alice (by decide +kernel) .viewer .read .root⟩

end Weftos.Resource.Cache
