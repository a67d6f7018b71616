import Weftos.Stream.Block
import Weftos.Stream.Follow

/-! A `block` reader loses nothing while the writer waits for it. The writer's `keep_from` and the reader's
`oldest` meet in one number, `reach`. -/

namespace Weftos.Stream.Lossless
open Lib.Bytes Lib.Run Lib.Seqlock Stream.Ring Untorn
open Lib.Rising Resident Follow Block List Function

section
variable {ι : Type} {g : Geometry}

/-! ### The ring under the writer -/

def waiting : Phase ι → Option StreamRecord
  | .any rec _ | .lock rec _ | .scan rec _ _ | .late rec | .demote rec _ => some rec
  | .idle | .write => none

structure SysInv (g : Geometry) (s : Block.State ι) : Prop where
  ring : Inv g s.ring
  slots : SlotsInv g s.ring
  quiet : s.phase ≠ .write → s.ring.writer.writing = none
  call : ∀ rec, waiting s.phase = some rec →
    rec.seq = s.ring.mem OFF_HEAD + 1 ∧ rec.data.length ≤ g.maxRecord ∧ rec.seq + 2 < U64

variable {s : Block.State ι} {rec : StreamRecord} {phase : Phase ι}

theorem SysInv.begin (sys : SysInv g s) (new : s.ring.mem OFF_HEAD < rec.seq) (low : rec.seq + 2 < U64) :
    SysInv g (s.begin g rec) where
  ring := sys.ring.begin new (by unfold BUSY; omega)
  slots := sys.slots.begin new
  quiet other := absurd rfl other
  call _ none := by cases none

theorem SysInv.proceed (sys : SysInv g s) (call : waiting s.phase = some rec) : SysInv g (s.begin g rec) := by
  obtain ⟨seq, _, low⟩ := sys.call rec call
  exact sys.begin (by omega) low

theorem SysInv.look (sys : SysInv g s) (call : waiting s.phase = some rec) (same : waiting phase = some rec) :
    SysInv g { s with phase := phase, demoted := demoted } where
  ring := sys.ring
  slots := sys.slots
  quiet _ := sys.quiet fun write => by rw [write] at call; cases call
  call other found := by
    rw [same] at found
    cases found
    exact sys.call rec call

theorem SysInv.stored (sound : Sound g) (sys : SysInv g s)
    (next : phase = if s.ring.store.writer.writing.isNone then .idle else .write) :
    SysInv g { s with ring := s.ring.store, phase := phase } where
  ring := sys.ring.store sound
  slots := sys.slots.store sound sys.ring
  quiet other := by
    by_contra busy
    apply other
    have : s.ring.store.writer.writing.isNone = false := by
      rw [Option.isNone_eq_false_iff, Option.isSome_iff_ne_none]
      exact busy
    rw [next, this]
    rfl
  call rec found := by
    rw [next] at found
    split_ifs at found <;> cases found

theorem low_call (low : Low s) (call : s.call = some rec) : rec.seq + 2 < U64 := by
  rw [Low, call, Option.all_some, decide_eq_true_eq] at low
  exact low

theorem sysInv_opened (g : Geometry) (ringId : Nat) {head : Nat} (below : head < BUSY) (block : ι → Bool) :
    SysInv g (Block.State.opened g ringId head block) where
  ring := inv_opened g ringId below fun _ => ⟨Nat.one_pos, by decide⟩
  slots := slotsInv_opened ..
  quiet _ := rfl
  call _ none := by cases none

variable [DecidableEq ι] {s : Block.State ι}

theorem SysInv.advance (sound : Sound g) (sys : SysInv g s) (expired : Bool) : SysInv g (s.advance g expired) := by
  unfold State.advance
  cases phase : s.phase with
  | idle => exact sys
  | any rec again =>
    dsimp only
    split_ifs
    · exact sys.proceed (by rw [phase]; rfl)
    · exact sys.look (by rw [phase]; rfl) rfl
  | lock rec again => exact sys.look (by rw [phase]; rfl) rfl
  | scan rec again todo =>
    cases todo with
    | nil => exact sys.proceed (by rw [phase]; rfl)
    | cons i todo =>
      dsimp only
      split_ifs
      · exact sys.look (by rw [phase]; rfl) rfl
      · exact sys.look (by rw [phase]; rfl) rfl
      · exact sys.look (by rw [phase]; rfl) rfl
  | late rec =>
    dsimp only
    split_ifs
    · exact sys.look (by rw [phase]; rfl) rfl
    · exact sys.look (by rw [phase]; rfl) rfl
  | demote rec todo =>
    cases todo with
    | nil => exact sys.proceed (by rw [phase]; rfl)
    | cons i todo =>
      dsimp only
      split_ifs
      · exact sys.look (by rw [phase]; rfl) rfl
      · exact sys.look (by rw [phase]; rfl) rfl
  | write => exact sys.stored sound rfl

theorem SysInv.setReader (sys : SysInv g s) (i : ι) (reader : ReaderInv g s.ring.mem s.ring.log r)
    (page : ι → Nat) (clients : ι → Client) :
    SysInv g { s with ring := s.ring.setReader i r, page := page, clients := clients } where
  ring := sys.ring.setReader i reader
  slots := sys.slots.setReaders _
  quiet := sys.quiet
  call := sys.call

theorem SysInv.tryNext (sound : Sound g) (sys : SysInv g s) (i : ι) : SysInv g (s.tryNext g i) := by
  have reader := (sys.ring.readers i).read sound sys.ring
  unfold State.tryNext
  dsimp only
  split_ifs with due
  · exact { sys with }
  · split
    · exact sys.setReader i reader s.page s.clients
    · exact sys.setReader i reader s.page _

theorem SysInv.attach (sys : SysInv g s) (i : ι) (head : Nat) : SysInv g (s.attach i head) := by
  by_cases possible :
      (decide (head ≤ s.ring.mem OFF_HEAD) && decide ((s.ring.readers i).at_ = .idle) && !(s.clients i).due) = true
  · rw [State.attach, if_pos possible]
    simp only [Bool.and_eq_true, decide_eq_true_eq] at possible
    have bound := sys.ring.head_lt
    have next : wrap (head + 1) = head + 1 := wrap_of_lt (by unfold BUSY at bound; omega)
    have fresh : ReaderInv g s.ring.mem s.ring.log ⟨wrap (head + 1), .idle, []⟩ := by
      rw [next]
      exact ⟨Nat.succ_pos _, show head + 1 ≤ BUSY by omega, fun _ none => absurd none not_mem_nil,
        fun _ none => absurd none not_mem_nil, .nil, trivial⟩
    exact sys.setReader i fresh _ s.clients
  · rw [State.attach, if_neg possible]
    exact sys

theorem SysInv.write (sys : SysInv g s) (tNs wNs : Nat) (data : Octets)
    (low : Low (Block.step g s (.write tNs wNs data))) : SysInv g (Block.step g s (.write tNs wNs data)) := by
  have below : s.ring.writer.head < BUSY := sys.ring.writer_head.trans_lt sys.ring.head_lt
  unfold Block.step at low ⊢
  cases phase : s.phase with
  | idle =>
    rw [phase] at low
    dsimp only at low ⊢
    by_cases fits : data.length ≤ g.maxRecord
    · rw [if_pos fits] at low ⊢
      refine { sys with quiet := fun _ => sys.quiet (by simp [phase]), call := ?_ }
      intro rec found
      cases found
      refine ⟨?_, fits, low_call low rfl⟩
      rw [← sys.ring.writer_head]
      exact nextSeq_eq below
    · rw [if_neg fits]
      exact sys
  | _ => exact sys

theorem SysInv.writeAt (sys : SysInv g s) (seq : UInt64) (tNs wNs : Nat) (data : Octets)
    (low : Low (Block.step g s (.writeAt seq tNs wNs data))) :
    SysInv g (Block.step g s (.writeAt seq tNs wNs data)) := by
  have below : s.ring.writer.head < BUSY := sys.ring.writer_head.trans_lt sys.ring.head_lt
  unfold Block.step at low ⊢
  cases phase : s.phase with
  | idle =>
    rw [phase] at low
    dsimp only at low ⊢
    by_cases fits : data.length ≤ g.maxRecord
    · rw [if_pos fits] at low ⊢
      have quiet := sys.quiet (by simp [phase])
      have new : s.ring.mem OFF_HEAD < s.ring.writer.seqAt seq := by
        rw [seqAt_eq below, sys.ring.writer_head]
        omega
      have begun : s.ring.begin g ⟨s.ring.writer.seqAt seq, tNs, wNs, data⟩ = _ := if_pos (by simp [quiet, fits])
      refine sys.begin new (low_call low ?_)
      rw [State.call, Block.State.begin, begun]
      rfl
    · rw [if_neg fits]
      exact sys
  | _ => exact sys

theorem SysInv.step (sound : Sound g) (sys : SysInv g s) (act : Block.Act ι) (low : Low (Block.step g s act)) :
    SysInv g (Block.step g s act) := by
  cases act with
  | write tNs wNs data => exact sys.write tNs wNs data low
  | writeAt seq tNs wNs data => exact sys.writeAt seq tNs wNs data low
  | writer expired => exact sys.advance sound expired
  | tryNext i => exact sys.tryNext sound i
  | attach i head => exact sys.attach i head
  | relax i => exact { sys with }
  | join i | leave i =>
    unfold Block.step
    split_ifs
    · exact sys
    · exact { sys with }

/-! ### The reader under the writer's wait -/

theorem SysInv.newest_le_reach (sys : SysInv g s) (i : ι) : newest s.ring ≤ s.reach i := by
  have quiet (other : s.phase ≠ .write) : newest s.ring = s.ring.mem OFF_HEAD := by
    rw [newest, sys.quiet other]
  unfold State.reach
  cases phase : s.phase with
  | write =>
    unfold newest
    cases s.ring.writer.writing <;> exact Nat.le_refl _
  | scan rec | demote rec todo =>
    have call := (sys.call rec (by rw [phase]; rfl)).1
    have same := quiet (by simp [phase])
    dsimp only
    split_ifs <;> omega
  | _ => exact (quiet (by simp [phase])).le

structure BlockInv (g : Geometry) (i : ι) (w : Watch) (s : Block.State ι) : Prop where
  sys : SysInv g s
  held : Held s i
  started : w.start ≤ s.page i
  page_le : s.page i ≤ (s.ring.readers i).next
  room : s.reach i + 2 ≤ s.page i + g.slotCount
  top : w.top + 2 ≤ w.start + g.slotCount
  fresh : ∀ rec rest, s.ring.writer.writing = some (rec, rest) → rec.seq ≤ max w.top (s.ring.mem OFF_HEAD + 1)
  follows : Follows g w (s.ring.mem OFF_HEAD) s.ring.log (s.ring.readers i)

variable {i : ι} {w : Watch} {rec : StreamRecord} {j : ι}

theorem tryNext_cases (g : Geometry) (s : Block.State ι) (i : ι) :
    (∃ clients, (s.clients i).due = true ∧ (clients i).due = false ∧ s.tryNext g i =
      { s with page := update s.page i (s.ring.readers i).next, clients := clients }) ∨
    ∃ clients, (s.clients i).due = false ∧
      ((clients i).due = true → ((s.ring.readers i).read g s.ring.mem).got ≠ (s.ring.readers i).got) ∧
      s.tryNext g i = { s with
        ring := s.ring.setReader i ((s.ring.readers i).read g s.ring.mem), clients := clients } := by
  unfold State.tryNext
  dsimp only
  by_cases due : (s.clients i).due = true
  · rw [if_pos due]
    refine .inl ⟨_, due, ?_, rfl⟩
    rw [update_self]
  · rw [if_neg due]
    refine .inr ?_
    split
    · exact ⟨s.clients, Bool.eq_false_iff.mpr due, fun dueNow => absurd dueNow due, rfl⟩
    · rename_i rec rest more
      refine ⟨_, Bool.eq_false_iff.mpr due, ?_, rfl⟩
      intro _ same
      rw [same, drop_length] at more
      cases more

/-- The steps the reader is promised its records under: plain writes, and nobody hands it
another ring. -/
def plain (i : ι) : Block.Act ι → Bool
  | .writeAt .. => false
  | .attach j _ => i ≠ j
  | _ => true

section
variable (block : BlockInv g i w s)
include block

theorem BlockInv.near : Near g w s.ring (s.ring.readers i).next where
  newest := by
    have newest := block.sys.newest_le_reach i
    have room := block.room
    have page := block.page_le
    omega
  top := block.top

theorem BlockInv.reads (sound : Sound g) :
    Reads g s.ring (s.ring.readers i) ((s.ring.readers i).read g s.ring.mem) :=
  block.follows.reads sound block.sys.ring block.sys.slots (block.sys.ring.readers i) block.near

theorem BlockInv.frame (sys : SysInv g t) (held : Held t i)
    (page : t.page i = s.page i) (reader : t.ring.readers i = s.ring.readers i)
    (head : t.ring.mem OFF_HEAD = s.ring.mem OFF_HEAD) (log : t.ring.log = s.ring.log)
    (fresh : ∀ rec rest, t.ring.writer.writing = some (rec, rest) → rec.seq ≤ max w.top (s.ring.mem OFF_HEAD + 1))
    (room : t.reach i + 2 ≤ s.page i + g.slotCount) : BlockInv g i w t where
  sys := sys
  held := held
  started := block.started.trans_eq page.symm
  page_le := by rw [page, reader]; exact block.page_le
  room := by rw [page]; exact room
  top := block.top
  fresh := by rw [head]; exact fresh
  follows := by rw [head, log, reader]; exact block.follows

theorem BlockInv.head_room : s.ring.mem OFF_HEAD + 2 ≤ s.page i + g.slotCount := by
  have head := head_le_newest block.sys.ring
  have newest := block.sys.newest_le_reach i
  have room := block.room
  omega

theorem BlockInv.cleared (positive : 0 < w.start) (low : rec.seq + 2 < U64)
    (ahead : ¬ s.lags g rec i = true) : rec.seq + 2 ≤ s.page i + g.slotCount := by
  have started := block.started
  have keep : keepFrom g rec.seq = rec.seq + 2 - g.slotCount := by rw [keepFrom, wrap_of_lt low]
  simp only [State.lags, block.held.2, Bool.not_false, Bool.true_and, Bool.and_eq_true, decide_eq_true_eq,
    keep] at ahead
  omega

theorem BlockInv.proceed (call : waiting s.phase = some rec) (passed : s.reach i = rec.seq) :
    BlockInv g i w (s.begin g rec) := by
  obtain ⟨seq, fits, _⟩ := block.sys.call rec call
  have quiet := block.sys.quiet fun write => by rw [write] at call; cases call
  have writing : (s.ring.begin g rec).writer.writing = some (rec, publish (g.slot rec.seq) BUSY rec.seq rec.words) := by
    rw [Ring.State.begin, if_pos (by simp [quiet, fits])]
  refine block.frame (block.sys.proceed call) block.held rfl ?_ ?_ ?_ ?_ ?_
  · exact congrFun (s.ring.begin_readers g rec) i
  · exact congrFun (s.ring.begin_mem g rec) OFF_HEAD
  · exact s.ring.begin_log g rec
  · intro other rest underWay
    change (s.ring.begin g rec).writer.writing = _ at underWay
    rw [writing] at underWay
    cases underWay
    omega
  · have reach : (s.begin g rec).reach i = rec.seq := by
      rw [State.reach, Block.State.begin, writing]
      rfl
    rw [reach, ← passed]
    exact block.room

theorem BlockInv.look (call : waiting s.phase = some rec)
    (same : waiting phase = some rec) (held : demoted i = false)
    (room : State.reach { s with phase := phase, demoted := demoted } i + 2 ≤ s.page i + g.slotCount) :
    BlockInv g i w { s with phase := phase, demoted := demoted } :=
  block.frame (block.sys.look call same) ⟨block.held.1, held⟩ rfl rfl rfl rfl block.fresh room

/-- The look at one cursor: where it is this reader's, the call is past it only if it
leaves the reader its record. -/
theorem BlockInv.next_todo (positive : 0 < w.start) (call : waiting s.phase = some rec)
    (reach : s.reach i = if i ∈ j :: todo then s.ring.mem OFF_HEAD else rec.seq)
    (ahead : j = i → ¬ s.lags g rec i = true) :
    (if i ∈ todo then s.ring.mem OFF_HEAD else rec.seq) + 2 ≤ s.page i + g.slotCount := by
  obtain ⟨_, _, low⟩ := block.sys.call rec call
  have head := block.head_room
  split_ifs with later
  · exact head
  · by_cases here : j = i
    · exact block.cleared positive low (ahead here)
    · have outside : i ∉ j :: todo := by
        rw [mem_cons]
        rintro (same | inside)
        · exact here same.symm
        · exact later inside
      rw [if_neg outside] at reach
      exact reach ▸ block.room

theorem BlockInv.stored (sound : Sound g) (phase : s.phase = .write) {after : Phase ι}
    (next : after = if s.ring.store.writer.writing.isNone then .idle else .write) :
    BlockInv g i w { s with ring := s.ring.store, phase := after } := by
  have sys := block.sys.stored sound next
  have room := block.room
  rw [State.reach, phase] at room
  cases writing : s.ring.writer.writing with
  | none =>
    have same : s.ring.store = s.ring := by rw [Ring.State.store, writing]
    rw [same] at sys next ⊢
    rw [writing] at next
    subst next
    exact block.frame sys block.held rfl rfl rfl rfl block.fresh block.head_room
  | some call =>
    obtain ⟨rec, rest⟩ := call
    have own := block.sys.ring.writing rec rest writing
    rw [writing] at room
    cases rest with
    | cons st rest =>
      have stored : s.ring.store = { s.ring with mem := s.ring.mem.store st, writer.writing := some (rec, rest) } := by
        rw [Ring.State.store, writing]
      rw [stored] at next sys ⊢
      subst next
      refine block.frame sys block.held rfl rfl (own.head_kept sound) rfl ?_ room
      intro other left underWay
      cases underWay
      exact block.fresh rec (st :: rest) writing
    | nil =>
      have stored : s.ring.store = { s.ring with
          mem := s.ring.mem.store (OFF_HEAD, rec.seq), writer := ⟨rec.seq, none⟩, log := s.ring.log ++ [rec] } := by
        rw [Ring.State.store, writing]
      rw [stored] at next sys ⊢
      subst next
      have head : s.ring.mem.store (OFF_HEAD, rec.seq) OFF_HEAD = rec.seq := Memory.store_same ..
      have follows := block.follows.commit own.new (block.fresh rec [] writing)
      refine { block with sys := sys, fresh := fun _ _ none => by (cases none), room := ?_, follows := ?_ }
      · change s.ring.mem.store (OFF_HEAD, rec.seq) OFF_HEAD + 2 ≤ _
        rw [head]
        exact room
      · dsimp only
        rw [head]
        exact follows

theorem BlockInv.advance (sound : Sound g) (positive : 0 < w.start) (expired : Bool)
    (held : Held (s.advance g expired) i) : BlockInv g i w (s.advance g expired) := by
  have head := block.head_room
  unfold State.advance at held ⊢
  cases phase : s.phase with
  | idle => exact block
  | any rec again =>
    have some_reader : s.cursors ≠ [] := ne_nil_of_mem block.held.1
    dsimp only
    rw [if_neg some_reader]
    exact block.look (by rw [phase]; rfl) rfl block.held.2 head
  | lock rec again =>
    refine block.look (by rw [phase]; rfl) rfl block.held.2 ?_
    rw [State.reach]
    dsimp only
    rw [if_pos block.held.1]
    exact head
  | scan rec again todo =>
    have call : waiting s.phase = some rec := by rw [phase]; rfl
    cases todo with
    | nil => exact block.proceed call (by rw [State.reach, phase]; simp)
    | cons j todo =>
      dsimp only
      by_cases lags : s.lags g rec j = true
      · rw [if_pos lags]
        cases again
        · exact block.look call rfl block.held.2 head
        · exact block.look call rfl block.held.2 head
      · rw [if_neg lags]
        refine block.look call rfl block.held.2 ?_
        exact block.next_todo positive call (by rw [State.reach, phase]) fun here => here ▸ lags
  | late rec =>
    have call : waiting s.phase = some rec := by rw [phase]; rfl
    dsimp only
    split_ifs
    · refine block.look call rfl block.held.2 ?_
      rw [State.reach]
      dsimp only
      rw [if_pos block.held.1]
      exact head
    · exact block.look call rfl block.held.2 head
  | demote rec todo =>
    have call : waiting s.phase = some rec := by rw [phase]; rfl
    cases todo with
    | nil => exact block.proceed call (by rw [State.reach, phase]; simp)
    | cons j todo =>
      rw [phase] at held
      dsimp only at held ⊢
      by_cases lags : s.lags g rec j = true
      · rw [if_pos lags] at held ⊢
        -- this reader is not demoted here, so it is another one that lags
        have other : j ≠ i := by
          rintro rfl
          have demoted : update s.demoted j true j = false := held.2
          rw [update_self] at demoted
          cases demoted
        refine block.look call rfl held.2 ?_
        exact block.next_todo positive call (by rw [State.reach, phase]) fun here => absurd here other
      · rw [if_neg lags]
        refine block.look call rfl block.held.2 ?_
        exact block.next_todo positive call (by rw [State.reach, phase]) fun here => here ▸ lags
  | write => exact block.stored sound phase rfl

theorem BlockInv.tryNext (sound : Sound g) : BlockInv g i w (s.tryNext g i) := by
  have sys := block.sys.tryNext sound i
  have page := block.page_le
  have room := block.room
  rcases tryNext_cases g s i with ⟨clients, _, _, same⟩ | ⟨clients, _, _, same⟩
  · rw [same] at sys ⊢
    have stored : update s.page i (s.ring.readers i).next i = (s.ring.readers i).next :=
      update_self ..
    refine { block with sys := sys, started := ?_, page_le := ?_, room := ?_ }
    · exact block.follows.started.trans_eq stored.symm
    · exact stored.le
    · change s.reach i + 2 ≤ update s.page i (s.ring.readers i).next i + g.slotCount
      omega
  · rw [same] at sys ⊢
    have reads := block.reads sound
    have reader : (s.ring.setReader i ((s.ring.readers i).read g s.ring.mem)).readers i =
        (s.ring.readers i).read g s.ring.mem := update_self ..
    have forward := reads.next_le
    refine { block with sys := sys, page_le := ?_, follows := ?_ }
    · change s.page i ≤ (update s.ring.readers i _ i).next
      rw [update_self]
      exact page.trans forward
    · rw [reader]
      exact block.follows.step block.sys.ring reads

theorem BlockInv.other_tryNext (sound : Sound g) (other : i ≠ j) :
    BlockInv g i w (s.tryNext g j) := by
  have sys := block.sys.tryNext sound j
  rcases tryNext_cases g s j with ⟨clients, _, _, same⟩ | ⟨clients, _, _, same⟩
  · rw [same] at sys ⊢
    exact block.frame sys block.held (update_of_ne other ..) rfl rfl rfl block.fresh block.room
  · rw [same] at sys ⊢
    exact block.frame sys block.held rfl (update_of_ne other ..) rfl rfl block.fresh block.room

theorem BlockInv.other_attach (other : i ≠ j) (head : Nat) :
    BlockInv g i w (s.attach j head) := by
  have sys := block.sys.attach j head
  unfold State.attach at sys ⊢
  by_cases possible :
      (decide (head ≤ s.ring.mem OFF_HEAD) && decide ((s.ring.readers j).at_ = .idle) && !(s.clients j).due) = true
  · rw [if_pos possible] at sys ⊢
    have page : (if (s.clients j).block = true then update s.page j (wrap (head + 1)) else s.page) i = s.page i := by
      split_ifs
      · exact update_of_ne other ..
      · rfl
    exact block.frame sys block.held page (update_of_ne other ..) rfl rfl block.fresh block.room
  · rw [if_neg possible]
    exact block

theorem BlockInv.step (sound : Sound g) (positive : 0 < w.start) (act : Block.Act ι)
    (low : Low (Block.step g s act)) (held : Held (Block.step g s act) i) (allowed : plain i act = true) :
    BlockInv g i w (Block.step g s act) := by
  have sys := block.sys.step sound act low
  have head := block.head_room
  cases act with
  | write tNs wNs data =>
    unfold Block.step at sys ⊢
    cases phase : s.phase with
    | idle =>
      rw [phase] at sys
      dsimp only at sys ⊢
      by_cases fits : data.length ≤ g.maxRecord
      · rw [if_pos fits] at sys ⊢
        exact block.frame sys block.held rfl rfl rfl rfl block.fresh head
      · rw [if_neg fits]
        exact block
    | _ => exact block
  | writeAt => cases allowed
  | writer expired => exact block.advance sound positive expired held
  | tryNext j =>
    by_cases here : i = j
    · subst here
      exact block.tryNext sound
    · exact block.other_tryNext sound here
  | attach j at_ => exact block.other_attach (of_decide_eq_true allowed) at_
  | relax j => exact block.frame sys block.held rfl rfl rfl rfl block.fresh block.room
  | join j | leave j =>
    unfold Block.step at sys held ⊢
    dsimp only at sys held ⊢
    split_ifs at sys held ⊢
    · exact block
    · exact block.frame sys held rfl rfl rfl rfl block.fresh block.room

/-- Left to itself, the reader gets everything that is committed. -/
theorem BlockInv.drain (sound : Sound g) :
    ∃ steps, ((run (Block.step g) s (replicate steps (.tryNext i))).ring.readers i).got =
      w.before ++ w.due s.ring.log := by
  -- by induction on the reader's work, a due cursor store counted as one more step
  induction size : work g (s.ring.mem OFF_HEAD) (s.ring.readers i) + (s.clients i).due.toNat
    using Nat.strong_induction_on generalizing s with
  | _ size ih =>
    subst size
    have again (t : Block.State ι) (same : s.tryNext g i = t) (log : t.ring.log = s.ring.log)
        (less : work g (t.ring.mem OFF_HEAD) (t.ring.readers i) + (t.clients i).due.toNat <
          work g (s.ring.mem OFF_HEAD) (s.ring.readers i) + (s.clients i).due.toNat) :
        ∃ steps, ((run (Block.step g) s (replicate steps (.tryNext i))).ring.readers i).got =
          w.before ++ w.due s.ring.log := by
      obtain ⟨steps, all⟩ := ih _ less (same ▸ block.tryNext sound) rfl
      refine ⟨steps + 1, ?_⟩
      rw [replicate_succ, run_cons]
      change ((run (Block.step g) (s.tryNext g i) _).ring.readers i).got = _
      rw [same, all, log]
    rcases tryNext_cases g s i with ⟨clients, due, stored, same⟩ | ⟨clients, due, record, same⟩
    · apply again _ same rfl
      simp only [due, stored, Bool.toNat_true, Bool.toNat_false]
      exact Nat.lt_succ_self _
    · have reader : (s.ring.setReader i ((s.ring.readers i).read g s.ring.mem)).readers i =
          (s.ring.readers i).read g s.ring.mem := update_self ..
      rcases (block.reads sound).progress with behind | ⟨nearer, spare⟩
      · refine ⟨0, ?_⟩
        rw [replicate_zero, run_nil, block.follows.got, below_eq_self]
        intro rec member
        have := block.sys.ring.log_le rec (mem_of_mem_filter member)
        omega
      · apply again _ same rfl
        rw [reader, due]
        cases dueNow : (clients i).due with
        | false => exact nearer
        | true => exact spare (record dueNow)

end

def watchFrom (s : Block.State ι) (i : ι) (start : Nat) : Watch :=
  ⟨start, newest s.ring, (s.ring.readers i).got⟩

theorem blockInv_published (sys : SysInv g s) (published : Published g s i start) :
    BlockInv g i (watchFrom s i start) s := by
  have readable := published.readable
  have bound := sys.newest_le_reach i
  constructor
  case sys => exact sys
  case held => exact published.held
  case started => exact published.page.ge
  case page_le => exact (published.page.trans published.next.symm).le
  case room => rw [published.page]; exact readable
  case top => change newest s.ring + 2 ≤ start + g.slotCount; omega
  case fresh =>
    intro rec rest writing
    have own : newest s.ring = rec.seq := by rw [newest, writing]
    exact own.ge.trans (Nat.le_max_left ..)
  case follows =>
    constructor
    case started => exact published.next.ge
    case next_le => exact published.next.le.trans (Nat.le_max_left ..)
    case got =>
      have none : below StreamRecord.seq (s.ring.readers i).next ((watchFrom s i start).due s.ring.log) = [] := by
        apply below_nil_of_le
        intro rec member
        rw [published.next]
        exact of_decide_eq_true (mem_filter.mp member).2
      rw [none, append_nil]
      rfl
    case turns =>
      intro left found
      rw [published.idle] at found
      cases found
    case dense =>
      intro seq past upTo
      have := head_le_newest sys.ring
      change newest s.ring < seq at past
      omega

/-- From a moment when a `block` reader's cursor is published, and while the writer waits for it, the reader
gets every record from its start on, in order and without a gap. -/
theorem block_lossless {g : Geometry} (valid : g.valid = true) (small : g.maxRecord + 40 ≤ U64) (ringId : Nat)
    {head : Nat} (under : head < BUSY) (policy : ι → Bool) {earlier acts : List (Block.Act ι)} {i : ι} {start : Nat}
    (low : Along (Block.step g) (fun s act => Low (Block.step g s act)) (Block.State.opened g ringId head policy)
      earlier)
    (published : Published g (run (Block.step g) (Block.State.opened g ringId head policy) earlier) i start)
    (waited : Along (Block.step g)
      (fun s act => Low (Block.step g s act) ∧ Held (Block.step g s act) i ∧ plain i act = true)
      (run (Block.step g) (Block.State.opened g ringId head policy) earlier) acts) :
    let moment := run (Block.step g) (Block.State.opened g ringId head policy) earlier
    let before := (moment.ring.readers i).got
    let s := run (Block.step g) moment acts
    let due := s.ring.log.filter fun rec => start ≤ rec.seq
    (∃ received, received <+: due ∧ (s.ring.readers i).got = before ++ received) ∧
      ((s.ring.readers i).at_ ≠ .idle → ((Block.step g s (.tryNext i)).ring.readers i).at_ = .idle →
        ((Block.step g s (.tryNext i)).ring.readers i).got = (s.ring.readers i).got →
        (s.ring.readers i).got = before ++ due) ∧
      ∃ steps, ((run (Block.step g) s (replicate steps (.tryNext i))).ring.readers i).got = before ++ due := by
  have sound := sound_of_valid valid small
  intro moment before s due
  have sys : SysInv g moment :=
    run_keeps (fun s act (sys : SysInv g s) low => sys.step sound act low) (sysInv_opened g ringId under policy) low
  have block : BlockInv g i (watchFrom moment i start) s :=
    run_keeps (fun s act (block : BlockInv g i (watchFrom moment i start) s) permitted =>
      block.step sound published.positive act permitted.1 permitted.2.1 permitted.2.2)
      (blockInv_published sys published) waited
  refine ⟨⟨_, below_prefix (block.sys.ring.log_increasing.filter _) _, block.follows.got⟩, ?_, block.drain sound⟩
  intro active ended same
  have reads := block.reads sound
  rcases tryNext_cases g s i with ⟨clients, _, _, next⟩ | ⟨clients, _, _, next⟩
  · change ((s.tryNext g i).ring.readers i).at_ = .idle at ended
    rw [next] at ended
    exact absurd ended active
  · change ((s.tryNext g i).ring.readers i).at_ = .idle at ended
    change ((s.tryNext g i).ring.readers i).got = _ at same
    rw [next] at ended same
    have reader : (s.ring.setReader i ((s.ring.readers i).read g s.ring.mem)).readers i =
        (s.ring.readers i).read g s.ring.mem := update_self ..
    dsimp only at ended same
    rw [reader] at ended same
    exact block.follows.nothing_due block.sys.ring reads active ended same

end

def oneWrite : List (Block.Act Unit) := .write 0 0 [] :: replicate 10 (.writer false)

/-- Two records fill what the reader leaves free of a ring of three; the third waits until
the reader has taken the first. -/
def waitingWrite : List (Block.Act Unit) :=
  oneWrite ++ oneWrite ++ .write 0 0 [] :: replicate 5 (.writer false) ++ replicate 8 (.tryNext ()) ++
    replicate 12 (.writer false) ++ replicate 3 (.tryNext ())

theorem block_lossless_waiting :
    let moment := run (Block.step threeSlots) (Block.State.opened threeSlots 7 0 fun _ => true) [.join (), .attach () 0]
    let s := run (Block.step threeSlots) moment waitingWrite
    ((s.ring.log.map StreamRecord.seq, (s.ring.readers ()).got.map StreamRecord.seq) = ([1, 2, 3], [1])) ∧
      ∃ steps, ((run (Block.step threeSlots) s (replicate steps (.tryNext ()))).ring.readers ()).got =
        (moment.ring.readers ()).got ++ s.ring.log.filter fun rec => 1 ≤ rec.seq :=
  ⟨by decide +kernel, (block_lossless (by decide) (by decide) 7 (by decide) (fun _ => true) (by decide +kernel)
    ⟨by decide +kernel, by decide +kernel, by decide +kernel, by decide +kernel, by decide, by decide +kernel⟩
    (by decide +kernel : Along _ _ _ waitingWrite)).2.2⟩

/-- Three records are there and the fourth is past its look at the cursor when the reader
takes over the ring at seq 2. -/
def lateStart : List (Block.Act Unit) :=
  .join () :: oneWrite ++ oneWrite ++ oneWrite ++ .write 0 0 [] :: replicate 4 (.writer false) ++ [.attach () 1]

/-- `start + slot_count ≥ head + 2` at that moment and the reader is never demoted, yet
record 2 is lost to it. -/
theorem block_loses_late_start :
    let moment := run (Block.step threeSlots) (Block.State.opened threeSlots 7 0 fun _ => true) lateStart
    let acts := replicate 6 (.writer false) ++ replicate 7 (.tryNext ())
    let s := run (Block.step threeSlots) moment acts
    (moment.page () = 2 ∧ (moment.ring.readers ()).next = 2 ∧ (moment.ring.readers ()).at_ = .idle ∧
      moment.ring.mem OFF_HEAD + 2 ≤ 2 + threeSlots.slotCount ∧ Held moment ()) ∧
      Along (Block.step threeSlots) (fun s act => Low (Block.step threeSlots s act) ∧
        Held (Block.step threeSlots s act) () ∧ plain () act = true) moment acts ∧
      s.ring.log.map StreamRecord.seq = [1, 2, 3, 4] ∧ (s.ring.readers ()).got.map StreamRecord.seq = [3] := by
  decide +kernel

end Weftos.Stream.Lossless
