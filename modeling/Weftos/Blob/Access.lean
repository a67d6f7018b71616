import Weftos.Blob.Entry

/-! Who keeps a blob alive and who reads it. One set of readers has the principals the handle was passed to,
those that put the same bytes, and those whose put moves the expiry out. -/

namespace Weftos.Blob.Access
open Lib Content Entry

variable {m : Meta}

theorem ownedBy_iff : m.ownedBy p = true ↔ p = m.principal := by
  rw [Meta.ownedBy, Bool.and_eq_true, beq_iff_eq, beq_iff_eq, Meta.principal, Prod.ext_iff]
  exact ⟨fun own => ⟨own.2.symm, own.1.symm⟩, fun own => ⟨own.2.symm, own.1.symm⟩⟩

def passed (acts : List Act) (h : String) (giver receiver : Principal) : Bool :=
  acts.any fun
    | .grant hashes g r => hashes.contains h && g == giver && r == receiver
    | _ => false

/-- The puts that the operations complete from a store: whose they are and the hash of the bytes. -/
def puts (env : Env) (cfg : BlobConfig) : Store → List Act → List (Principal × String)
  | _, [] => []
  | s, act :: acts =>
    (completes s act).toList.map (fun put => (put.2.principal, env.hash put.2.received)) ++
      puts env cfg (step env cfg s act) acts

def uploaded (env : Env) (cfg : BlobConfig) (acts : List Act) (who : Principal) (h : String) : Bool :=
  (puts env cfg Store.empty acts).contains (who, h)

/-- After the operations `before`: only an owner passes a blob on, and bytes that are there
are put again only by the owner, by a principal it passed the handle to, or by one that did
not put them before. -/
def orderly (env : Env) (cfg : BlobConfig) (before : List Act) (act : Act) : Bool :=
  let s := after env cfg before
  let passes := match act with
    | .grant hashes giver _ => hashes.all fun h =>
        (s.blobs.lookup h).all fun m => m.ownedBy giver || !m.readers.contains giver
    | _ => true
  let repeats := (completes s act).all fun put =>
    let h := env.hash put.2.received
    (s.blobs.lookup h).all fun m => m.expiresMs ≤ put.1 || m.ownedBy put.2.principal ||
      passed before h m.principal put.2.principal || !uploaded env cfg before put.2.principal h
  passes && repeats

def Orderly (env : Env) (cfg : BlobConfig) (acts : List Act) : Prop :=
  Run.Along (fun before act => before ++ [act]) (fun before act => orderly env cfg before act = true) [] acts

variable {h : String} {act : Act}

section
variable {env : Env} {cfg : BlobConfig} {acts : List Act}

theorem puts_append (s : Store) (first second : List Act) :
    puts env cfg s (first ++ second) = puts env cfg s first ++
      puts env cfg (Run.run (step env cfg) s first) second := by
  induction first generalizing s with
  | nil => rfl
  | cons act first ih => simp only [List.cons_append, puts, ih, Run.run_cons, List.append_assoc]

theorem uploaded_append (act : Act) (earlier : uploaded env cfg acts who h = true) :
    uploaded env cfg (acts ++ [act]) who h = true := by
  rw [uploaded, List.contains_iff_mem] at earlier ⊢
  rw [puts_append]
  exact List.mem_append_left _ earlier

theorem uploaded_last (completed : completes (after env cfg acts) act = some (now, u)) :
    uploaded env cfg (acts ++ [act]) u.principal (env.hash u.received) = true := by
  rw [uploaded, List.contains_iff_mem, puts_append]
  have here : (u.principal, env.hash u.received) ∈ puts env cfg (after env cfg acts) [act] := by simp [puts, completed]
  exact List.mem_append_right _ here

theorem passed_append (act : Act)
    (earlier : passed acts h giver receiver = true) : passed (acts ++ [act]) h giver receiver = true := by
  rw [passed, List.any_append]
  exact Bool.or_eq_true_iff.mpr (.inl earlier)

theorem passed_last (acts : List Act) (giver receiver : Principal) (listed : h ∈ hashes) :
    passed (acts ++ [.grant hashes giver receiver]) h giver receiver = true := by
  rw [passed, List.any_append]
  exact Bool.or_eq_true_iff.mpr (.inr (by simp [listed]))

theorem after_snoc (acts : List Act) (act : Act) :
    after env cfg (acts ++ [act]) = step env cfg (after env cfg acts) act := Run.run_append _ _ _

theorem history_run (before acts : List Act) :
    Run.run (fun (before : List Act) act => before ++ [act]) before acts = before ++ acts := by
  induction acts generalizing before with
  | nil => simp
  | cons act acts ih => simp [ih]

theorem Orderly.split (orderly_ : Orderly env cfg (before ++ act :: rest)) :
    Orderly env cfg before ∧ orderly env cfg before act = true := by
  obtain ⟨front, here⟩ := Run.along_append.mp orderly_
  rw [history_run] at here
  exact ⟨front, here.1⟩

theorem orderly_giver (fine : orderly env cfg before (.grant hashes giver receiver) = true) (listed : h ∈ hashes)
    (found : (after env cfg before).blobs.lookup h = some m) (holds : m.ownedBy giver = true ∨ giver ∈ m.readers) :
    giver = m.principal := by
  rw [← ownedBy_iff]
  by_contra other
  have reader := holds.resolve_left other
  rw [orderly, Bool.and_eq_true] at fine
  have all := List.all_eq_true.mp fine.1 h listed
  simp [found, other, reader] at all

/-- In an orderly run a live blob's readers are those the owner passed it to and those that
put its bytes. -/
def Known (env : Env) (cfg : BlobConfig) (acts : List Act) (h : String) (m : Meta) : Prop :=
  ∀ p ∈ m.readers, passed acts h m.principal p = true ∨ uploaded env cfg acts p h = true

theorem Known.snoc (known : Known env cfg acts h m) (act : Act) : Known env cfg (acts ++ [act]) h m :=
  fun p reads => (known p reads).imp (passed_append act) (uploaded_append act)

theorem known_after (orderly_ : Orderly env cfg acts)
    (found : (after env cfg acts).blobs.lookup h = some m) : Known env cfg acts h m := by
  induction acts using List.reverseRecOn generalizing m with
  | nil => simp [after, Store.empty] at found
  | append_singleton acts act ih =>
    obtain ⟨front, fine⟩ := orderly_.split
    rw [after_snoc] at found
    cases step_fate env cfg (distinct_after env cfg acts) act h with
    | kept blob file =>
      rw [blob] at found
      exact (ih front found).snoc act
    | dropped _ _ _ blob => simp [blob] at found
    | @passed old giver receiver hashes before grants listed holds blob file =>
      subst grants
      obtain rfl := Option.some.inj (blob.symm.trans found)
      have owner := orderly_giver fine listed before holds
      intro p reads
      obtain rfl | reads := List.mem_insert_iff.mp reads
      · exact .inl (owner ▸ passed_last acts giver p listed)
      · exact (ih front before).snoc _ p reads
    | @putAgain old now u before completed here live blob file =>
      obtain rfl := Option.some.inj (blob.symm.trans found)
      intro p reads
      obtain rfl | reads := List.mem_insert_iff.mp reads
      · exact .inr (here ▸ uploaded_last completed)
      · exact (ih front before).snoc act p reads
    | stored gone completed here blob =>
      obtain rfl := Option.some.inj (blob.symm.trans found)
      intro p reads
      simp [Upload.stored] at reads

theorem extends_cases (found : (after env cfg acts).blobs.lookup h = some m)
    (live : act.before m.expiresMs = true) (found' : (after env cfg (acts ++ [act])).blobs.lookup h = some m')
    (later : m.expiresMs < m'.expiresMs) :
    ∃ now u, completes (after env cfg acts) act = some (now, u) ∧ env.hash u.received = h ∧ now < m.expiresMs ∧
      (m.ownedBy u.principal = true ∨ u.principal ∈ m.readers) := by
  rw [after_snoc] at found'
  cases step_fate env cfg (distinct_after env cfg acts) act h with
  | kept blob file =>
    obtain rfl := Option.some.inj (found.symm.trans (blob.symm.trans found'))
    exact absurd later (Nat.lt_irrefl _)
  | dropped _ _ _ blob => simp [blob] at found'
  | passed before grants listed holds blob =>
    obtain rfl := Option.some.inj (found.symm.trans before)
    obtain rfl := Option.some.inj (blob.symm.trans found')
    exact absurd later (Nat.lt_irrefl _)
  | @putAgain old now u before completed here alive blob file =>
    obtain rfl := Option.some.inj (found.symm.trans before)
    obtain rfl := Option.some.inj (blob.symm.trans found')
    refine ⟨now, u, completed, here, alive, ?_⟩
    by_contra stranger
    have same : (m.putAgain u.principal (u.expires now)).expiresMs = m.expiresMs :=
      if_neg (by simpa using stranger)
    omega
  | @stored now u gone completed here blob file =>
    obtain ⟨_, _, _, _, rfl, -, -⟩ := completes_eq completed
    have expired := gone m found
    have before : now < m.expiresMs := by simpa [Act.before, Act.now] using live
    omega

theorem orderly_putter (fine : orderly env cfg before act = true)
    (completed : completes (after env cfg before) act = some (now, u))
    (found : (after env cfg before).blobs.lookup (env.hash u.received) = some m) (live : now < m.expiresMs)
    (again : uploaded env cfg before u.principal (env.hash u.received) = true) :
    m.ownedBy u.principal = true ∨ passed before (env.hash u.received) m.principal u.principal = true := by
  unfold orderly at fine
  have all := (Bool.and_eq_true_iff.mp fine).2
  have alive : ¬ m.expiresMs ≤ now := Nat.not_le.mpr live
  simpa [completed, found, alive, again] using all

theorem find_ok (read : find now who h s = (.ok m, s')) : s.blobs.lookup h = some m ∧ m.mayRead who = true := by
  unfold find at read
  split at read
  · cases read
  · next old found =>
    split at read
    · cases read
    · split at read
      · cases read
      · next may =>
        obtain ⟨same, -⟩ := Prod.mk.inj read
        obtain rfl := Except.ok.inj same
        exact ⟨found, by simpa using may⟩

/-- In an orderly run only the owner and those it passed the handle to move the expiry of a blob out, and
outside its project only those and who put the bytes read it. -/
theorem expiry_and_access (env : Env) (cfg : BlobConfig) (acts : List Act) (orderly_ : Orderly env cfg acts) :
    (∀ before act rest, acts = before ++ act :: rest → ∀ h m m',
      (after env cfg before).blobs.lookup h = some m → act.before m.expiresMs = true →
      (after env cfg (before ++ [act])).blobs.lookup h = some m' → m.expiresMs < m'.expiresMs →
      ∃ now u, completes (after env cfg before) act = some (now, u) ∧ env.hash u.received = h ∧
        (u.principal = m.principal ∨ passed before h m.principal u.principal = true)) ∧
    ∀ now who h m s', find now who h (after env cfg acts) = (.ok m, s') → who.1 ≠ m.projectId →
      passed acts h m.principal who = true ∨ uploaded env cfg acts who h = true := by
  constructor
  · rintro before act rest rfl h m m' found live found' later
    obtain ⟨front, fine⟩ := orderly_.split
    obtain ⟨now, u, completed, rfl, alive, own | reads⟩ := extends_cases found live found' later
    · exact ⟨now, u, completed, rfl, .inl (ownedBy_iff.mp own)⟩
    · refine ⟨now, u, completed, rfl, ?_⟩
      obtain given | again := known_after front found _ reads
      · exact .inr given
      · exact (orderly_putter fine completed found alive again).imp ownedBy_iff.mp id
  · intro now who h m s' read outside
    obtain ⟨found, may⟩ := find_ok read
    have reads : who ∈ m.readers := by
      rw [Meta.mayRead, Bool.or_eq_true, Bool.or_eq_true, ownedBy_iff, List.contains_iff_mem, beq_iff_eq] at may
      obtain (own | reads) | project := may
      · exact absurd (congrArg Prod.fst own) outside
      · exact reads
      · exact absurd project.symm outside
    exact known_after orderly_ found who reads

end

def putTwice : List Act :=
  [.begin 0 "a" (some "p") "text/plain" 1 none, .chunk 1 "a" 1 0 [7] true,
    .begin 5 "x" none "text/plain" 1 none, .chunk 6 "x" 2 0 [7] true]

def passedOn : List Act :=
  [.begin 0 "a" (some "p") "text/plain" 1 none, .chunk 1 "a" 1 0 [7] true,
    .grant ["07"] (some "p", "a") (some "q", "svc"), .grant ["07"] (some "q", "svc") (some "r", "c")]

/-- The second instance puts the byte once more, and moves the expiry of the first one's blob out; and a third
principal reads a blob that its owner did not pass to it and whose bytes it never put. -/
theorem pinned_and_passed_on :
    (∃ m m' u, (after .written .default (putTwice ++ [.begin 7 "x" none "text/plain" 1 none])).blobs.lookup "07" =
      some m ∧
      (after .written .default
        (putTwice ++ [.begin 7 "x" none "text/plain" 1 none, .chunk 8 "x" 3 0 [7] true])).blobs.lookup
        "07" = some m' ∧
      m.expiresMs = 600001 ∧ m'.expiresMs = 600008 ∧
      completes (after .written .default (putTwice ++ [.begin 7 "x" none "text/plain" 1 none]))
        (.chunk 8 "x" 3 0 [7] true) = some (8, u) ∧
      u.principal ≠ m.principal ∧
      passed (putTwice ++ [.begin 7 "x" none "text/plain" 1 none]) "07" m.principal u.principal = false) ∧
    ∃ m s, find 10 (some "r", "c") "07" (after .written .default passedOn) = (.ok m, s) ∧ some "r" ≠ m.projectId ∧
      passed passedOn "07" m.principal (some "r", "c") = false ∧
      uploaded .written .default passedOn (some "r", "c") "07" = false := by
  refine ⟨⟨⟨1, "text/plain", 600001, "a", some "p", [(none, "x")]⟩,
    ⟨1, "text/plain", 600008, "a", some "p", [(none, "x")]⟩,
    ⟨"x", none, "text/plain", 1, 600000, [7], 8⟩, ?_⟩, ?_⟩
  · decide +kernel
  · exact ⟨⟨1, "text/plain", 600001, "a", some "p", [(some "r", "c"), (some "q", "svc")]⟩, _, rfl, by decide +kernel⟩

def wellBehaved : List Act :=
  [.begin 0 "a" (some "p") "text/plain" 1 none, .chunk 1 "a" 1 0 [7] true,
    .grant ["07"] (some "p", "a") (some "q", "svc"),
    .begin 5 "svc" (some "q") "text/plain" 1 none, .chunk 6 "svc" 2 0 [7] true,
    .begin 7 "svc" (some "q") "text/plain" 1 none, .chunk 8 "svc" 3 0 [7] true,
    .begin 9 "x" none "text/plain" 1 none, .chunk 10 "x" 4 0 [7] true]

/-- The stranger reads the blob, which the theorem traces to its own put. -/
theorem expiry_and_access_wellBehaved :
    Orderly .written .default wellBehaved ∧
      passed wellBehaved "07" (some "p", "a") (none, "x") = false ∧
      uploaded .written .default wellBehaved (none, "x") "07" = true := by
  have orderly_ : Orderly .written .default wellBehaved := by
    unfold Orderly
    decide +kernel
  have apart : passed wellBehaved "07" (some "p", "a") (none, "x") = false := by decide +kernel
  obtain ⟨-, reads⟩ := expiry_and_access .written .default wellBehaved orderly_
  have read : find 20 (none, "x") "07" (after .written .default wellBehaved) =
      (.ok ⟨1, "text/plain", 600008, "a", some "p", [(none, "x"), (some "q", "svc")]⟩,
        after .written .default wellBehaved) := by rfl
  refine ⟨orderly_, apart, ?_⟩
  obtain given | own := reads 20 (none, "x") "07" _ _ read (by decide)
  · simp [Meta.principal, apart] at given
  · exact own

end Weftos.Blob.Access
