import Weftos.Bus.Source

/-! Switching an exposure off. After `withdraw` nothing of the exposure's topic is served, but
a `pump_source` that had collected frames before sends them all the same. -/

namespace Weftos.Bus.Withdraw
open Lib Lib.Run Lib.Outcome Bus.Types Source List Hub
open Bus.Mesh (Credit)
open Stream.Ring (StreamRecord)

variable (i : Nat) (o : Outside)

/-! ### What is left of an exposure -/

def carries (exposure : String) : Thread → Prop
  | .pumping p => ∃ f ∈ p.out, exposureId f.topic = exposure
  | _ => False

def admits (exposure : String) : Thread → Prop
  | .admitting a => exposureId a.topic = exposure
  | _ => False

def isOf (exposure : String) (f : Sent) : Bool := f.topic.any fun topic => exposureId topic = exposure

/-- Nothing of the exposure's topic is served or about to be sent, nor was any sent since
the frames of `past`. -/
structure Silent (exposure : String) (past : List Sent) (h : Hub) : Prop where
  served : ∀ topic ∈ h.served.map (·.2.topic), exposureId topic ≠ exposure
  threads : ∀ i, ¬ carries exposure (h.threads i)
  sent : ∃ later, h.sent = past ++ later ∧ ∀ f ∈ later, isOf exposure f = false

/-! ### A turn keeps its topic -/

section
variable {env : HubEnv} {spend : Spend} {key : SubKey} {topic : String} {t : Turn}

def Turn.about (topic : String) (t : Turn) : Prop := t.served.topic = topic ∧ ∀ f ∈ t.out, f.topic = topic

theorem reading_about (about : Turn.about topic t) (d : Delivery) : Turn.about topic (t.reading env spend key d) := by
  unfold Turn.reading
  by_cases dropped : (t.served.credit.n = 0 || !spend.reading d) = true
  · rw [if_pos dropped]
    exact about
  · rw [if_neg dropped]
    refine ⟨about.1, fun f listed => ?_⟩
    rcases mem_append.mp listed with old | new
    · exact about.2 f old
    · rw [mem_singleton.mp new]
      exact about.1

theorem chunk_about (about : Turn.about topic t) (r : StreamRecord) : Turn.about topic (t.chunk spend key r) := by
  unfold Turn.chunk
  dsimp only
  split_ifs with dropped
  · exact about
  · refine ⟨about.1, fun f listed => ?_⟩
    rcases mem_append.mp listed with old | new
    · exact about.2 f old
    · rw [mem_singleton.mp new]
      exact about.1

theorem foldl_about {α : Type} {turn : Turn → α → Turn}
    (keeps : ∀ t item, Turn.about topic t → Turn.about topic (turn t item))
    (items : List α) (about : Turn.about topic t) : Turn.about topic (items.foldl turn t) := by
  induction items generalizing t with
  | nil => exact about
  | cons item items ih => exact ih (keeps t item about)

theorem turn_about (s : Served) : Turn.about s.topic (s.turn env spend key) := by
  have readings : Turn.about s.topic ((Turn.mk s [] []).readings env spend key) :=
    foldl_about (fun _ d about => reading_about about d) _ ⟨rfl, fun _ => nofun⟩
  unfold Served.turn Turn.chunks
  cases tap : ((Turn.mk s [] []).readings env spend key).served.tap with
  | none => exact readings
  | some tap => exact foldl_about (fun _ r about => chunk_about about r) _ readings

theorem pumpTurn_about (registry : Registry) (o : Outside) (entry : SubKey × Served) :
    Turn.about entry.2.topic (pumpTurn env registry o entry) := by
  unfold pumpTurn
  split_ifs
  · exact ⟨rfl, fun _ => nofun⟩
  · exact turn_about entry.2

end

/-! ### Steps -/

section
variable {env : HubEnv} {cfg : HubConfig} {exposure : String} {past : List Sent} {h : Hub} {a : Admission}

section
variable (silent : Silent exposure past h)
include silent

theorem Silent.goes {next : Thread} (quiet : ¬ carries exposure next) :
    Silent exposure past (h.goes i next) where
  served := silent.served
  threads j := by
    by_cases same : j = i
    · rwa [same, goes_self]
    · rw [goes_of_ne h next same]
      exact silent.threads j
  sent := silent.sent

theorem Silent.send (peer : String) (data : TopicData)
    (other : ∀ about, topic = some about → exposureId about ≠ exposure) (o : Outside) :
    Silent exposure past (h.send peer data topic o) := by
  obtain ⟨later, sent, none⟩ := silent.sent
  refine ⟨silent.served, silent.threads, later ++ [⟨peer, data, topic, o.accepts⟩], ?_, ?_⟩
  · rw [Hub.send, sent, append_assoc]
  · intro f listed
    rcases mem_append.mp listed with old | new
    · exact none f old
    · rw [mem_singleton.mp new, isOf, Option.any_eq_false]
      exact fun about is => decide_eq_false (other about is)

theorem Silent.tell (peer : String) (data : TopicData) (o : Outside) :
    Silent exposure past (h.send peer data none o) := by
  apply silent.send
  intro about is
  cases is

theorem Silent.fewer {served : List (SubKey × Served)}
    (fewer : ∀ topic ∈ served.map (·.2.topic), topic ∈ h.served.map (·.2.topic)) :
    Silent exposure past { h with served := served } :=
  ⟨fun topic listed => silent.served topic (fewer topic listed), silent.threads, silent.sent⟩

theorem Silent.filter (keep : SubKey × Served → Bool) :
    Silent exposure past { h with served := h.served.filter keep } :=
  silent.fewer fun _ listed => (filter_sublist.map _).subset listed

theorem Silent.map {change : SubKey × Served → SubKey × Served}
    (same : ∀ entry, (change entry).2.topic = entry.2.topic) :
    Silent exposure past { h with served := h.served.map change } := by
  refine silent.fewer fun topic listed => ?_
  have topics : (fun entry : SubKey × Served => entry.2.topic) ∘ change = fun entry => entry.2.topic := funext same
  rwa [map_map, topics] at listed

theorem Silent.change (key : SubKey) {change : Served → Served} (same : ∀ s, (change s).topic = s.topic) :
    Silent exposure past (h.change key change) := by
  refine silent.map fun entry => ?_
  by_cases here : entry.1 = key
  · rw [if_pos here]
    exact same entry.2
  · rw [if_neg here]

theorem Silent.hand (hand : Hand) (nowMs : Nat) : Silent exposure past (h.hand hand nowMs) :=
  ⟨silent.served, silent.threads, silent.sent⟩

end

theorem count_topic (s : Served) (len : Nat) (sent : Bool) : (s.count len sent).topic = s.topic := by
  unfold Served.count
  split_ifs <;> rfl

theorem pumpSource_topics (h : Hub) (o : Outside) :
    (h.pumpSource env o).2.served.map (·.2.topic) = h.served.map (·.2.topic) := by
  unfold pumpSource
  simp only [map_map]
  apply map_congr_left
  intro entry _
  simp only [Function.comp_apply]
  exact (pumpTurn_about h.registry o entry).1

theorem pumpSource_out (h : Hub) (o : Outside) :
    ∀ f ∈ (h.pumpSource env o).1.out, f.topic ∈ h.served.map (·.2.topic) := by
  unfold pumpSource
  intro f listed
  simp only [mem_flatMap, mem_map] at listed
  obtain ⟨_, ⟨entry, served, rfl⟩, out⟩ := listed
  rw [(pumpTurn_about h.registry o entry).2 f out]
  exact mem_map.mpr ⟨entry, served, rfl⟩

section
variable (silent : Silent exposure past h)
include silent

theorem Silent.pumpSource : Silent exposure past (h.pumpSource env o).2 where
  served topic listed := silent.served topic (pumpSource_topics h o ▸ listed)
  threads := silent.threads
  sent := silent.sent

theorem Silent.pump {p : Pump} (quiet : ¬ carries exposure (.pumping p)) (o : Outside) :
    Silent exposure past (h.pump i p o) := by
  obtain ⟨hands, out, counting, ended, removed⟩ := p
  cases counting with
  | some counting => exact (silent.change _ fun s => count_topic s _ _).goes i quiet
  | none =>
    cases hands with
    | cons hand hands => exact (silent.hand hand o.nowMs).goes i quiet
    | nil =>
      cases out with
      | cons f out =>
        have other : ∀ about, some f.topic = some about → exposureId about ≠ exposure := by
          rintro _ ⟨⟩ about
          exact quiet ⟨f, mem_cons_self, about⟩
        refine (silent.send _ _ other o).goes i fun left => quiet ?_
        obtain ⟨g, listed, about⟩ := left
        exact ⟨g, mem_cons_of_mem f listed, about⟩
      | nil =>
        cases removed with
        | some removed => exact (silent.tell _ _ o).goes i quiet
        | none =>
          cases ended with
          | cons first ended => exact (silent.filter _).goes i quiet
          | nil => exact silent.goes i id

theorem Silent.begin (call : Call) :
    Silent exposure past (h.begin env cfg i o call) := by
  have serving : ¬ carries exposure env.serving := by
    unfold HubEnv.serving
    split_ifs <;> exact id
  cases call with
  | request peer req =>
    cases req with
    | subscribe =>
      simp only [Hub.begin]
      split
      · exact silent.goes i id
      · exact silent.goes i id
    | credit sub credit =>
      have granted : Silent exposure past (h.change (peer, sub) (·.grant cfg credit o.now)) :=
        silent.change _ fun _ => rfl
      exact granted.goes i id
    | unsubscribe sub => exact (silent.filter _).goes i id
  | fetch q => exact silent.goes i id
  | pumpSource =>
    refine (silent.pumpSource o).goes i fun ⟨f, listed, about⟩ => ?_
    exact silent.served f.topic (pumpSource_out h o f listed) about
  | serveFetches => exact silent.goes i serving
  | endPeer peer | withdraw other => exact (silent.filter _).goes i id

theorem Silent.fetch (stage : FetchStage) :
    Silent exposure past (h.fetch env i o stage) := by
  have serving : ¬ carries exposure env.serving := by
    unfold HubEnv.serving
    split_ifs <;> exact id
  have queued (queue : List Queued) : Silent exposure past { h with queue := queue } :=
    ⟨silent.served, silent.threads, silent.sent⟩
  cases stage with
  | lookedUp q handed | popped wait q | read =>
    simp only [Hub.fetch]
    split
    · exact silent.goes i id
    · exact silent.goes i id
  | permitted q => exact (queued _).goes i serving
  | loop wait =>
    simp only [Hub.fetch]
    split
    · exact (queued _).goes i id
    · exact (queued _).goes i id
  | found =>
    simp only [Hub.fetch]
    split_ifs
    · exact silent.goes i id
    · exact silent.goes i id
  | reply => exact (silent.tell _ _ o).goes i id

end

def Admitted (cfg : HubConfig) (exposure : String) (h : Hub) (act : Act) (i : Nat) (a : Admission) : Prop :=
  exposureId a.topic = exposure ∧ h.threads i = .admitting a ∧
    ∃ o served, act = .go i o ∧ a.enter cfg h.served o.openFails = .ok served

theorem admit_topics {served next : List (SubKey × Served)} {fails : Option String}
    (admitted : a.enter cfg served fails = .ok next) :
    ∀ topic ∈ next.map (·.2.topic), topic ∈ served.map (·.2.topic) ∨ topic = a.topic := by
  simp only [Admission.enter, bind_ok_iff, pure_ok_iff] at admitted
  obtain ⟨_, -, _, -, _, -, tap, -, rfl⟩ := admitted
  intro topic listed
  rw [Table.insert, map_append] at listed
  rcases mem_append.mp listed with old | new
  · exact .inl ((filter_sublist.map _).subset old)
  · exact .inr (mem_singleton.mp new)

theorem Silent.step (silent : Silent exposure past h) (env : HubEnv) (cfg : HubConfig) (act : Act) :
    Silent exposure past (Source.step env cfg h act) ∨ ∃ i a, Admitted cfg exposure h act i a := by
  cases act with
  | expose registry => exact .inl ⟨silent.served, silent.threads, silent.sent⟩
  | publish topic d | record topic r =>
    refine .inl (silent.map fun entry => ?_)
    split_ifs <;> rfl
  | call i call =>
    refine .inl ?_
    simp only [Source.step]
    split
    · exact silent.goes i id
    · exact silent
  | go i o =>
    have quiet := silent.threads i
    simp only [Source.step, go]
    cases thread : h.threads i with
    | idle => exact .inl silent
    | called call => exact .inl (silent.begin i o call)
    | admitting a =>
      simp only [admitting]
      cases admitted : a.enter cfg h.served o.openFails with
      | error e => exact .inl (silent.goes i id)
      | ok served =>
        by_cases about : exposureId a.topic = exposure
        · exact .inr ⟨i, a, about, thread, o, served, rfl, admitted⟩
        · have entered : Silent exposure past { h with served := served } := by
            refine ⟨fun topic listed => ?_, silent.threads, silent.sent⟩
            rcases admit_topics admitted topic listed with old | new
            · exact silent.served topic old
            · exact new ▸ about
          exact .inl (entered.goes i id)
    | answering peer data => exact .inl ((silent.tell _ _ o).goes i id)
    | pumping p => exact .inl (silent.pump i (thread ▸ quiet) o)
    | ending gone reason =>
      cases gone with
      | nil => exact .inl (silent.goes i id)
      | cons key gone => exact .inl ((silent.tell _ _ o).goes i id)
    | fetching stage => exact .inl (silent.fetch i o stage)

theorem checkSubscribe_ok {registry : Registry}
    (checked : checkSubscribe registry peer sub topic schema policy raw credit answers at_ = .ok a) :
    ∃ view, registry (exposureId a.topic) a.key.1 = .ok view := by
  simp only [checkSubscribe, bind_ok_iff, pure_ok_iff, mapError_ok_iff] at checked
  obtain ⟨_, -, t, -, _, -, _, -, view, served, _, -, _, -, _, -, _, -, _, -, rfl⟩ := checked
  exact ⟨view, served⟩

/-- Only the thread that runs changes, and it is admitting afterwards only if the exposure is
served to the peer. -/
def Moves (h : Hub) (i : Nat) (t : Hub) : Prop :=
  ∃ next, t.threads = Function.update h.threads i next ∧
    ∀ a, next = .admitting a → ∃ view, h.registry (exposureId a.topic) a.key.1 = .ok view

theorem moves_goes {t : Hub} {i : Nat} {next : Thread} (same : t.threads = h.threads)
    (other : ∀ a, next ≠ .admitting a) :
    Moves h i (t.goes i next) := by
  refine ⟨next, ?_, fun a is => absurd is (other a)⟩
  rw [goes, same]

theorem serving_ne (a : Admission) : env.serving ≠ .admitting a := by
  unfold HubEnv.serving
  split_ifs <;> simp

theorem begin_moves (call : Call) : Moves h i (h.begin env cfg i o call) := by
  cases call with
  | request peer req =>
    cases req with
    | subscribe =>
      simp only [Hub.begin]
      split
      · rename_i checked
        refine ⟨_, rfl, ?_⟩
        rintro _ ⟨⟩
        exact checkSubscribe_ok checked
      · exact moves_goes rfl (by simp)
    | credit sub credit | unsubscribe sub => exact moves_goes rfl (by simp)
  | fetch q | pumpSource | endPeer peer | withdraw other => exact moves_goes rfl (by simp)
  | serveFetches => exact moves_goes rfl serving_ne

theorem pump_moves (p : Pump) (o : Outside) : Moves h i (h.pump i p o) := by
  obtain ⟨hands, out, counting, ended, removed⟩ := p
  cases counting with
  | some counting => exact moves_goes rfl (by simp)
  | none =>
    cases hands with
    | cons hand hands => exact moves_goes rfl (by simp)
    | nil =>
      cases out with
      | cons f out => exact moves_goes rfl (by simp)
      | nil =>
        cases removed with
        | some removed => exact moves_goes rfl (by simp)
        | none =>
          cases ended with
          | cons first ended | nil => exact moves_goes rfl (by simp)

theorem fetch_moves (stage : FetchStage) : Moves h i (h.fetch env i o stage) := by
  cases stage with
  | permitted q => exact moves_goes rfl serving_ne
  | reply => exact moves_goes rfl (by simp)
  | _ =>
    simp only [Hub.fetch]
    split <;> exact moves_goes rfl (by simp)

theorem go_moves (env : HubEnv) (cfg : HubConfig) {i : Nat} (busy : h.threads i ≠ .idle) (o : Outside) :
    Moves h i (h.go env cfg i o) := by
  unfold go
  cases thread : h.threads i with
  | idle => exact absurd thread busy
  | called call => exact begin_moves i o call
  | admitting a =>
    simp only [admitting]
    split <;> exact moves_goes rfl (by simp)
  | answering peer data => exact moves_goes rfl (by simp)
  | pumping p => exact pump_moves i p o
  | ending gone reason => cases gone <;> exact moves_goes rfl (by simp)
  | fetching stage => exact fetch_moves i o stage

theorem step_admitting {i : Nat} (before : h.threads i ≠ .admitting a)
    (now : (step env cfg h act).threads i = .admitting a) :
    ∃ o view, act = .go i o ∧ h.registry (exposureId a.topic) a.key.1 = .ok view := by
  cases act with
  | expose registry | publish topic d | record topic r => exact absurd now before
  | call j call =>
    simp only [Source.step] at now
    split at now
    · by_cases same : i = j
      · rw [same, goes_self] at now
        cases now
      · rw [goes_of_ne h _ same] at now
        exact absurd now before
    · exact absurd now before
  | go j o =>
    change (h.go env cfg j o).threads i = _ at now
    by_cases idle : h.threads j = .idle
    · rw [go, idle] at now
      exact absurd now before
    · obtain ⟨next, threads, served⟩ := go_moves env cfg idle o
      rw [threads] at now
      by_cases same : i = j
      · rw [same, Function.update_self] at now
        obtain ⟨view, found⟩ := served a now
        exact ⟨o, view, same ▸ rfl, found⟩
      · rw [Function.update_of_ne same] at now
        exact absurd now before

end

/-- In the run, a subscribe to the exposure's topic finds it served to its peer and then is
admitted. -/
def Readmitted (env : HubEnv) (cfg : HubConfig) (exposure : String) (h : Hub) (acts : List Act) : Prop :=
  ∃ first i o second act third a view, acts = first ++ .go i o :: (second ++ act :: third) ∧
    (run (step env cfg) h first).registry exposure a.key.1 = .ok view ∧
    Admitted cfg exposure (run (step env cfg) h (first ++ .go i o :: second)) act i a

def sends (env : HubEnv) (cfg : HubConfig) (h : Hub) (act : Act) (f : Sent) : Prop :=
  (step env cfg h act).sent = h.sent ++ [f]

section
variable {env : HubEnv} {cfg : HubConfig} {exposure : String} {past : List Sent} {h : Hub}

theorem readmitted_of_broken (silent : Silent exposure past h)
    (calm : ∀ i, ¬ admits exposure (h.threads i)) (broken : ¬ Silent exposure past (run (step env cfg) h acts)) :
    Readmitted env cfg exposure h acts := by
  obtain ⟨before, act, third, rfl, still, now⟩ :=
    run_reaches (P := fun s => ¬ Silent exposure past s) (not_not_intro silent) broken
  obtain ⟨i, a, admitted⟩ := ((not_not.mp still).step env cfg act).resolve_left now
  have early : h.threads i ≠ .admitting a := by
    intro already
    have waiting := calm i
    rw [already] at waiting
    exact waiting admitted.1
  obtain ⟨first, check, second, rfl, not_yet, checked⟩ :=
    run_reaches (P := fun s : Hub => s.threads i = .admitting a) early admitted.2.1
  obtain ⟨o, view, rfl, served⟩ := step_admitting not_yet checked
  refine ⟨first, i, o, second, act, third, a, view, ?_, admitted.1 ▸ served, admitted⟩
  rw [append_assoc, cons_append]

theorem Silent.sends_other (silent : Silent exposure past h) (sent : sends env cfg h act f) :
    isOf exposure f = false := by
  have here : Silent exposure h.sent h := ⟨silent.served, silent.threads, [], (append_nil _).symm, fun _ => nofun⟩
  rcases here.step env cfg act with after | ⟨i, a, -, thread, o, served, rfl, admitted⟩
  · obtain ⟨later, all, other⟩ := after.sent
    rw [sent, append_cancel_left_eq] at all
    exact other f (all ▸ mem_singleton.mpr rfl)
  · have nothing : (Source.step env cfg h (.go i o)).sent = h.sent := by
      simp only [Source.step, go, thread, admitting, admitted]
      rfl
    rw [sends, nothing] at sent
    have lengths := congrArg length sent
    simp at lengths

/-- The lock region of `withdraw` leaves nothing of the exposure when no `pump_source` has
frames of it. -/
theorem silent_withdraw {i : Nat} (withdraws : h.threads i = .called (.withdraw exposure))
    (calm : ∀ j, ¬ carries exposure (h.threads j)) (o : Outside) :
    Silent exposure h.sent (step env cfg h (.go i o)) := by
  have left : Silent exposure h.sent (h.without exposure) := by
    refine ⟨fun topic listed => ?_, calm, [], (append_nil _).symm, fun _ => nofun⟩
    obtain ⟨entry, kept, rfl⟩ := mem_map.mp listed
    exact of_decide_eq_true (mem_filter.mp kept).2
  simp only [step, go, withdraws]
  exact left.goes i id

theorem withdraw_immediate (i : Nat) (o : Outside) (acts : List Act) (act : Act) (f : Sent)
    (withdraws : h.threads i = .called (.withdraw exposure))
    (calm : ∀ j, ¬ carries exposure (h.threads j) ∧ ¬ admits exposure (h.threads j))
    (sent : sends env cfg (run (step env cfg) h (.go i o :: acts)) act f) (about : isOf exposure f = true) :
    Readmitted env cfg exposure (step env cfg h (.go i o)) acts := by
  have silent : Silent exposure h.sent (step env cfg h (.go i o)) := silent_withdraw withdraws (fun j => (calm j).1) o
  refine readmitted_of_broken silent (fun j => ?_) fun still => ?_
  · intro waiting
    by_cases same : j = i
    · simp only [step, go, withdraws, same, Hub.begin, goes_self] at waiting
      exact waiting
    · simp only [step, go, withdraws, Hub.begin] at waiting
      rw [goes_of_ne _ _ same] at waiting
      exact (calm j).2 waiting
  · have other := still.sends_other sent
    rw [about] at other
    cases other

end

/-! ### A peer of a sensor -/

def quietEnv : HubEnv := ⟨fun _ => 2, fun _ => [], false⟩
def hubConfig : HubConfig := ⟨64, 1048576, 256, 256⟩

def outside : Outside :=
  ⟨0, 0, true, ⟨fun _ => true, fun _ => true⟩,
    ⟨some ⟨"senml.v1", .reading, some "a", some "p"⟩, some ⟨600, 4194304, 16, 30⟩, AllowAll⟩, none, true, .error ""⟩

def exposureOn : Act := .expose fun _ _ => .ok ⟨.paired, false, none, none⟩
def exposureOff : Act := .expose fun _ _ => .error "off"

def subscribes : Act := .call 0 (.request "n2" (.subscribe 1 "temp/k1" "senml.v1" "drop-oldest" false ⟨64, 0⟩))

def measured : Act := .publish "temp/k1" ⟨7, "temp/k1", "senml.v1", "k1", "n1", 10, 1, 11, .null⟩

def withdraws : Act := .call 1 (.withdraw "topic.temp/k1")

def isWithdrawing (exposure : String) : Thread → Bool
  | .called (.withdraw other) => other = exposure
  | _ => false

def isIdle : Thread → Bool
  | .idle => true
  | _ => false

def received (h : Hub) : List (String × Bool) :=
  (h.sent.filter (·.accepted)).map fun f => (f.peer, isOf "topic.temp/k1" f)

def collected : List Act :=
  [exposureOn, subscribes, .go 0 outside, .go 0 outside, measured, .call 0 .pumpSource, .go 0 outside, exposureOff,
    withdraws]

/-- A subscribe is checked before the withdrawal and enters the table after it; nobody
subscribes when the exposure is switched on again. -/
def lateEntry : List Act := [exposureOn, subscribes, .go 0 outside, exposureOff, withdraws]

def returned : List Act := [.go 1 outside, .go 1 outside, .go 1 outside]

def comesBack : List Act :=
  [subscribes, .go 0 outside, .go 0 outside, measured, .call 0 .pumpSource, .go 0 outside]

def withdrawing : Hub :=
  run (step quietEnv hubConfig) new [exposureOn, subscribes, .go 0 outside, .go 0 outside, withdraws]

theorem withdraw_immediate_comesBack :
    Readmitted quietEnv hubConfig "topic.temp/k1" (step quietEnv hubConfig withdrawing (.go 1 outside)) comesBack := by
  refine withdraw_immediate 1 outside comesBack (.go 0 outside) ⟨"n2", .reading 1 1 10 .null, some "temp/k1", true⟩
    rfl ?_ rfl
    (by decide)
  rintro (_ | _ | j)
  · exact ⟨id, id⟩
  · exact ⟨id, id⟩
  · exact ⟨id, id⟩

/-- Readings of the topic arrive after `withdraw` has returned: once collected before it, once by a subscribe
that was checked before it. -/
theorem sent_after_withdraw :
    isWithdrawing "topic.temp/k1" ((run (step quietEnv hubConfig) new collected).threads 1) = true ∧
    isIdle ((run (step quietEnv hubConfig) new (collected ++ returned)).threads 1) = true ∧
    (run (step quietEnv hubConfig) new (collected ++ returned)).served.isEmpty = true ∧
    received (run (step quietEnv hubConfig) new (collected ++ returned)) = [("n2", false)] ∧
    received (run (step quietEnv hubConfig) new (collected ++ returned ++ [.go 0 outside])) =
      [("n2", false), ("n2", true)] ∧
    isWithdrawing "topic.temp/k1" ((run (step quietEnv hubConfig) new lateEntry).threads 1) = true ∧
    received (run (step quietEnv hubConfig) new (lateEntry ++ returned)) = [] ∧
    received (run (step quietEnv hubConfig) new (lateEntry ++ returned ++
      [.go 0 outside, exposureOn, measured, .call 0 .pumpSource, .go 0 outside, .go 0 outside])) = [("n2", true)] := by
  decide +kernel

end Weftos.Bus.Withdraw
