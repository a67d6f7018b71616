import Weftos.Bus.Source

/-! Credit of one subscription of readings between a source hub and a subscriber's broker. The link keeps the
order of frames and may refuse any of them. -/

namespace Weftos.Bus.Credit
open Lib Lib.Run Lib.Outcome Bus.Types Source List Option
open Bus.Mesh (TopicReq Remote Offer MeshConfig Ask Owed owe)

variable (cfg : MeshConfig)

/-! ### The two ends -/

structure Ends where
  peer : String
  source : String
  sub : Nat
  env : HubEnv
  hub : HubConfig
  mesh : MeshConfig

/-- `pump_source` on this subscription: frames it has collected and whether the subscription
is to end, or an end that is still to be told. -/
inductive Pumping where
  | idle
  | sending (out : List TopicData) (exceeded : Option String)
  | removed (why : String)

/-- Requests that are not on the link yet are a grant of the frame handler and what
`mesh_due` owes. -/
structure Pair where
  served : Option Served
  pumping : Pumping
  data : List TopicData
  remote : Option Remote
  granting : Option TopicReq
  owed : List TopicReq
  reqs : List TopicReq

def Pair.new (ask : Ask) : Pair := ⟨none, .idle, [], some ask.remote, none, [], []⟩

inductive Act where
  | publish (d : Delivery)
  | pump (registry : Registry) (spend : Spend) (now : Nat)
  | pumpNext (accepts : Bool)
  | request (registry : Registry) (answers : Answers) (others : List (SubKey × Served)) (fails : Option String)
      (now : Nat)
    (accepts : Bool)
  | data (now : Nat)
  | grant (accepts : Bool)
  | due (offer : Option Offer) (subs : List (Nat × Broker.Sub)) (now : Nat)
  | sendOwed (accepts : Bool)

section
variable (e : Ends)

def Ends.key : SubKey := (e.peer, e.sub)

def taken {α : Type} (accepts : Bool) (f : α) : List α := if accepts then [f] else []

variable (p : Pair)

/-- The lock region of `pump_source`. -/
def Pair.pump (registry : Registry) (spend : Spend) (now : Nat) : Pair :=
  match p.served with
  | none => { p with pumping := .sending [] none }
  | some s =>
    match s.over registry e.peer now with
    | some why => { p with pumping := .sending [] (some why) }
    | none =>
      let turn := s.turn e.env spend e.key
      { p with served := some turn.served, pumping := .sending (turn.out.map (·.data)) none }

def Pair.pumpNext (accepts : Bool) : Pair :=
  match p.pumping with
  | .idle => p
  | .sending (f :: out) exceeded => { p with pumping := .sending out exceeded, data := p.data ++ taken accepts f }
  | .sending [] none => { p with pumping := .idle }
  | .sending [] (some why) =>
    if p.served.isSome then { p with served := none, pumping := .removed why } else { p with pumping := .idle }
  | .removed why => { p with pumping := .idle, data := p.data ++ taken accepts (.ended e.sub why) }

def Pair.subscribe (registry : Registry) (answers : Answers) (others : List (SubKey × Served))
    (fails : Option String) (now : Nat) (accepts : Bool) (topic schema policy : String) (raw : Bool)
    (credit : Mesh.Credit) :
    Pair :=
  let table := (p.served.map fun s => (e.key, s)).toList ++ others
  let entered := checkSubscribe registry e.peer e.sub topic schema policy raw credit answers now >>=
    (·.enter e.hub table fails)
  match entered with
  | .ok table => { p with served := table.lookup e.key }
  | .error why => { p with data := p.data ++ taken accepts (.error e.sub why.code.name why.message) }

/-- The source takes the next request; a topic of another class is not a subscription of
readings. -/
def Pair.request (registry : Registry) (answers : Answers) (others : List (SubKey × Served))
    (fails : Option String) (now : Nat) (accepts : Bool) : Pair :=
  match p.reqs with
  | [] => p
  | .subscribe _ topic schema policy raw credit :: reqs =>
    if answers.topic.all (·.cls = .reading) then
      { p with reqs := reqs }.subscribe e registry answers others fails now accepts topic schema policy raw credit
    else p
  | .credit _ credit :: reqs => { p with served := p.served.map (·.grant e.hub credit now), reqs := reqs }
  | .unsubscribe _ :: reqs => { p with served := none, reqs := reqs }

def Pair.reading (now : Nat) : Pair :=
  match p.remote with
  | none => { p with granting := some (.unsubscribe e.sub) }
  | some r =>
    let (n, next) := r.take e.mesh now
    { p with remote := some next, granting := if n = 0 then none else some (.credit e.sub ⟨n, 0⟩) }

def Pair.onData (now : Nat) : TopicData → Pair
  | .reading .. => p.reading e now
  | .ended _ why => { p with remote := p.remote.map (·.broke e.mesh why now) }
  | .error _ code message => { p with remote := p.remote.map (·.broke e.mesh s!"refused:{code} {message}" now) }
  | _ => p

def Pair.receive (now : Nat) : Pair :=
  match p.granting, p.data with
  | none, f :: data => { p with data := data }.onData e now f
  | _, _ => p

def Pair.grant (accepts : Bool) : Pair :=
  match p.granting with
  | none => p
  | some req => { p with granting := none, reqs := p.reqs ++ taken accepts req }

/-- `mesh_due` for this subscription, once its earlier frames are sent; offers are this
source's. -/
def Pair.due (offer : Option Offer) (subs : List (Nat × Broker.Sub)) (now : Nat) : Pair :=
  match p.remote, p.owed with
  | some r, [] =>
    let acc := owe e.mesh (fun _ => offer.map fun o => { o with node := e.source }) subs now
      ⟨fun _ => none, [], [], []⟩ (e.sub, r)
    { p with remote := acc.remote.lookup e.sub, owed := acc.out.map (·.2) }
  | _, _ => p

def Pair.sendOwed (accepts : Bool) : Pair :=
  match p.owed with
  | [] => p
  | req :: owed => { p with owed := owed, reqs := p.reqs ++ taken accepts req }

def step : Act → Pair
  | .publish d => { p with served := p.served.map fun s => { s with queue := s.queue.push d } }
  | .pump registry spend now =>
    match p.pumping with
    | .idle => p.pump e registry spend now
    | _ => p
  | .pumpNext accepts => p.pumpNext e accepts
  | .request registry answers others fails now accepts => p.request e registry answers others fails now accepts
  | .data now => p.receive e now
  | .grant accepts => p.grant accepts
  | .due offer subs now => p.due e offer subs now
  | .sendOwed accepts => p.sendOwed accepts

end

/-! ### Frames in flight -/

def isReading : TopicData → Bool
  | .reading .. => true
  | _ => false

def isEnd : TopicData → Bool
  | .ended .. | .error .. => true
  | _ => false

def isCredit : TopicReq → Bool
  | .credit .. => true
  | _ => false

def granted : TopicReq → Nat
  | .credit _ credit => credit.n
  | _ => 0

def grants (reqs : List TopicReq) : Nat := (reqs.map granted).sum

def Pumping.frames (sub : Nat) : Pumping → List TopicData
  | .idle => []
  | .sending out _ => out
  | .removed why => [.ended sub why]

def Pumping.ending : Pumping → Bool
  | .sending _ (some _) => true
  | _ => false

def Pair.flight (e : Ends) (p : Pair) : List TopicData := p.data ++ p.pumping.frames e.sub

def Pair.requests (p : Pair) : List TopicReq := p.granting.toList ++ p.reqs ++ p.owed

@[simp] theorem grants_nil : grants [] = 0 := rfl

@[simp] theorem grants_cons (req : TopicReq) (reqs : List TopicReq) :
    grants (req :: reqs) = granted req + grants reqs :=
  sum_cons

@[simp] theorem grants_append (first second : List TopicReq) :
    grants (first ++ second) = grants first + grants second := by
  rw [grants, map_append, sum_append]
  rfl

/-! ### The invariant -/

def Renewals (reqs : List TopicReq) : Prop := ∀ req ∈ reqs, isCredit req = true ∧ granted req = 0

def Credits (reqs : List TopicReq) : Prop := ∀ req ∈ reqs, isCredit req = true

structure Absent (e : Ends) (p : Pair) : Prop where
  served : p.served = none
  ending : p.pumping.ending = false
  flight : p.flight e = []
  granting : p.granting = none

/-- The count of an open subscription: more than half of the window, and never more than it. -/
structure Granted (cfg : MeshConfig) (r : Remote) : Prop where
  most : r.outstanding ≤ cfg.window
  half : 0 < cfg.window → cfg.window / 2 < r.outstanding

structure Waiting (e : Ends) (p : Pair) (r : Remote) : Prop extends Absent e p where
  remote : p.remote = some r
  phase : r.phase ≠ .open
  owed : Renewals p.owed
  reqs : Credits p.reqs

structure Fresh (e : Ends) (p : Pair) (r : Remote) : Prop extends Absent e p where
  remote : p.remote = some r
  phase : r.phase = .open
  outstanding : r.outstanding = e.mesh.window

structure Asking (e : Ends) (p : Pair) (r : Remote) : Prop extends Fresh e p r where
  owed : p.owed = [r.request e.mesh e.sub]
  reqs : Credits p.reqs

structure Asked (e : Ends) (p : Pair) (r : Remote) (before after : List TopicReq) : Prop extends Fresh e p r where
  owed : Renewals p.owed
  reqs : p.reqs = before ++ r.request e.mesh e.sub :: after
  credits : Credits before
  renewals : Renewals after

structure Open (p : Pair) (r : Remote) : Prop where
  remote : p.remote = some r
  phase : r.phase = .open
  owed : Renewals p.owed
  reqs : Credits p.reqs
  granting : Credits p.granting.toList

/-- The subscriber's count is the source's credit with the readings and the credit in flight. -/
structure Serving (e : Ends) (p : Pair) (s : Served) (r : Remote) : Prop extends Open p r where
  served : p.served = some s
  tap : s.tap = none
  bound : Granted e.mesh r
  account : r.outstanding = s.credit.n + (p.flight e).length + grants p.requests
  flight : ∀ f ∈ p.flight e, isReading f = true

structure Finished (e : Ends) (p : Pair) (r : Remote) (readings last : List TopicData) : Prop extends Open p r where
  served : p.served = none
  ending : p.pumping.ending = false
  flight : p.flight e = readings ++ last
  all : ∀ f ∈ readings, isReading f = true
  ends : ∀ f ∈ last, isEnd f = true
  one : last.length ≤ 1

/-- Where the subscription is. -/
inductive Stage (e : Ends) (p : Pair) : Prop
  | left (remote : p.remote = none)
  | waiting (r : Remote) (on : Waiting e p r)
  | asking (r : Remote) (on : Asking e p r)
  | asked (r : Remote) (before after : List TopicReq) (on : Asked e p r before after)
  | serving (s : Served) (r : Remote) (on : Serving e p s r)
  | finished (r : Remote) (readings last : List TopicData) (on : Finished e p r readings last)

/-! ### The source -/

variable {credit : Nat} {s : Served} {why : String}

section
variable {e : Ends} {p : Pair}

structure Spent (credit : Nat) (t : Turn) : Prop where
  tap : t.served.tap = none
  account : t.served.credit.n + t.out.length = credit
  readings : ∀ f ∈ t.out, isReading f.data = true

theorem Spent.reading (spent : Spent credit t) (env : HubEnv) (spend : Spend) (key : SubKey) (d : Delivery) :
    Spent credit (t.reading env spend key d) := by
  unfold Turn.reading
  by_cases dropped : (t.served.credit.n = 0 || !spend.reading d) = true
  · rw [if_pos dropped]
    exact ⟨spent.tap, spent.account, spent.readings⟩
  · rw [if_neg dropped]
    have some_left : t.served.credit.n ≠ 0 := by
      intro none
      simp [none] at dropped
    have account := spent.account
    refine ⟨spent.tap, ?_, fun f listed => ?_⟩
    · simp only [length_append, length_singleton]
      omega
    · rcases mem_append.mp listed with old | new
      · exact spent.readings f old
      · rw [mem_singleton.mp new]
        rfl

theorem Spent.foldl (spent : Spent credit t) (env : HubEnv) (spend : Spend) (key : SubKey)
    (items : List Delivery) : Spent credit (items.foldl (Turn.reading env spend key) t) := by
  induction items generalizing t with
  | nil => exact spent
  | cons d items ih => exact ih (spent.reading env spend key d)

theorem turn_spent (tap : s.tap = none) (env : HubEnv) (spend : Spend) (key : SubKey) :
    Spent s.credit.n (s.turn env spend key) := by
  have start : Spent s.credit.n ⟨{ s with queue := s.queue.drained }, [], []⟩ := ⟨tap, rfl, fun _ => nofun⟩
  have readings := start.foldl env spend key s.queue.buf
  have chunks : s.turn env spend key = (Turn.mk s [] []).readings env spend key := by
    have none : ((Turn.mk s [] []).readings env spend key).served.tap = none := readings.tap
    rw [Served.turn, Turn.chunks, none]
  rw [chunks]
  exact readings

theorem Stage.moves (stage : Stage e p)
    (kept : (served.map fun s => (s.tap, s.credit.n)) = p.served.map fun s => (s.tap, s.credit.n))
    (ending : pumping.ending = p.pumping.ending)
    (same : Pair.flight e { p with pumping := pumping, data := data } = p.flight e) :
    Stage e { p with served := served, pumping := pumping, data := data } := by
  have gone (absent : p.served = none) : served = none := by
    rw [absent] at kept
    exact map_eq_none_iff.mp kept
  have nothing (absent : Absent e p) : Absent e { p with served := served, pumping := pumping, data := data } :=
    ⟨gone absent.served, ending.trans absent.ending, same.trans absent.flight, absent.granting⟩
  cases stage with
  | left remote => exact .left remote
  | waiting r on => exact .waiting r { on with toAbsent := nothing on.toAbsent }
  | asking r on => exact .asking r { on with toAbsent := nothing on.toAbsent }
  | asked r before after on => exact .asked r before after { on with toAbsent := nothing on.toAbsent }
  | serving s r on =>
    rw [on.served] at kept
    obtain ⟨s', there, equal⟩ := map_eq_some_iff.mp kept
    obtain ⟨sameTap, sameCredit⟩ := Prod.mk.inj equal
    refine .serving s' r { on with
      served := there, tap := sameTap.trans on.tap, account := ?_, flight := same.symm ▸ on.flight }
    rw [sameCredit]
    exact same.symm ▸ on.account
  | finished r readings last on =>
    exact .finished r readings last { on with
      served := gone on.served, ending := ending.trans on.ending, flight := same.trans on.flight }

theorem Stage.publish (stage : Stage e p) (d : Delivery) : Stage e (step e p (.publish d)) := by
  apply stage.moves _ rfl rfl
  rw [Option.map_map]
  rfl

section
variable {registry : Registry} {spend : Spend} {now : Nat}

theorem Stage.pump (stage : Stage e p) (idle : p.pumping = .idle) : Stage e (p.pump e registry spend now) := by
  have data : p.flight e = p.data := by rw [Pair.flight, idle, Pumping.frames, append_nil]
  have same (exceeded : Option String) : Pair.flight e { p with pumping := .sending [] exceeded } = p.flight e := by
    rw [data]
    exact append_nil _
  cases here : p.served with
  | none =>
    simp only [Pair.pump, here]
    exact stage.moves (by rw [here]) (by rw [idle]; rfl) (same none)
  | some s =>
    have served : p.served ≠ none := by rw [here]; exact some_ne_none s
    cases stage with
    | left remote =>
      refine .left ?_
      simp only [Pair.pump, here]
      split <;> exact remote
    | waiting r on | asking r on | asked r before after on | finished r readings last on =>
      exact absurd on.served served
    | serving s' r on =>
      obtain rfl : s' = s := some.inj (on.served.symm.trans here)
      cases exceeded : s'.over registry e.peer now with
      | some why =>
        simp only [Pair.pump, here, exceeded]
        exact .serving s' r { on with
          served := rfl, account := (same (some why)).symm ▸ on.account
          flight := (same (some why)).symm ▸ on.flight }
      | none =>
        have spent := turn_spent on.tap e.env spend e.key
        have collected := spent.account
        have account := on.account
        simp only [Pair.pump, here, exceeded]
        rw [data] at account
        refine .serving _ r { on with
          served := rfl, tap := spent.tap, account := ?_, flight := fun f listed => ?_ }
        · simp only [Pair.flight, Pumping.frames, length_append, length_map]
          change _ = _ + grants p.requests
          omega
        · rcases mem_append.mp listed with old | new
          · exact on.flight f (data ▸ old)
          · obtain ⟨g, out, rfl⟩ := mem_map.mp new
            exact spent.readings g out

end

theorem Stage.removes (stage : Stage e p) (pumping : p.pumping = .sending [] (some why)) (accepts : Bool) :
    Stage e (p.pumpNext e accepts) := by
  have ending : p.pumping.ending ≠ false := by rw [pumping]; exact Bool.noConfusion
  cases stage with
  | left remote =>
    refine .left ?_
    rw [Pair.pumpNext, pumping]
    split_ifs <;> exact remote
  | waiting r on | asking r on | asked r before after on | finished r readings last on =>
    exact absurd on.ending ending
  | serving s r on =>
    have data : p.flight e = p.data := by rw [Pair.flight, pumping, Pumping.frames, append_nil]
    have removed : p.pumpNext e accepts = { p with served := none, pumping := .removed why } := by
      rw [Pair.pumpNext, pumping]
      dsimp only
      rw [if_pos (by rw [on.served]; rfl)]
    rw [removed]
    exact .finished r p.data [.ended e.sub why] { on with
      served := rfl, ending := rfl, flight := rfl, all := data ▸ on.flight, ends := by simp [isEnd], one := le_rfl }

theorem Stage.tells (stage : Stage e p) (pumping : p.pumping = .removed why) (accepts : Bool) :
    Stage e { p with pumping := .idle, data := p.data ++ taken accepts (.ended e.sub why) } := by
  have frames : p.flight e = p.data ++ [.ended e.sub why] := by rw [Pair.flight, pumping, Pumping.frames]
  have told : .ended e.sub why ∈ p.flight e := by
    rw [frames]
    exact mem_append_right _ mem_cons_self
  cases stage with
  | left remote => exact .left remote
  | waiting r on | asking r on | asked r before after on => exact absurd on.flight (ne_nil_of_mem told)
  | serving s r on => cases on.flight _ told
  | finished r readings last on =>
    have flight := on.flight
    cases accepts with
    | true =>
      refine .finished r readings last { on with ending := rfl, flight := ?_ }
      rw [← flight, frames]
      exact append_nil _
    | false =>
      have split : p.data = readings := by
        rw [frames] at flight
        cases last with
        | nil =>
          rw [append_nil] at flight
          cases on.all (.ended e.sub why) (flight ▸ mem_append_right _ mem_cons_self)
        | cons x rest =>
          have one := on.one
          have short : rest = [] := by
            rw [length_cons] at one
            exact length_eq_zero_iff.mp (by omega)
          subst short
          exact (append_inj' flight rfl).1
      refine .finished r readings [] { on with ending := rfl, flight := ?_, ends := by simp, one := Nat.zero_le 1 }
      rw [← split]
      simp [Pair.flight, Pumping.frames, taken]

theorem Stage.pumpNext (stage : Stage e p)
    (takes : ∀ f out exceeded, p.pumping = .sending (f :: out) exceeded → accepts = true) :
      Stage e (p.pumpNext e accepts) := by
  cases pumping : p.pumping with
  | idle =>
    rw [Pair.pumpNext, pumping]
    exact stage
  | removed why =>
    rw [Pair.pumpNext, pumping]
    exact stage.tells pumping accepts
  | sending out exceeded =>
    cases out with
    | cons f out =>
      rw [Pair.pumpNext, pumping, takes f out exceeded pumping]
      refine stage.moves rfl (by rw [pumping]; cases exceeded <;> rfl) ?_
      simp [Pair.flight, pumping, Pumping.frames, taken]
    | nil =>
      cases exceeded with
      | none =>
        rw [Pair.pumpNext, pumping]
        refine stage.moves rfl (by rw [pumping]; rfl) ?_
        simp [Pair.flight, pumping, Pumping.frames]
      | some why => exact stage.removes pumping accepts

end

/-! ### Requests at the source -/

variable {req : TopicReq} {reqs : List TopicReq} {r : Remote}

section
variable {e : Ends} {p : Pair}

theorem Credits.tail (credits : Credits (req :: reqs)) : Credits reqs :=
  fun other listed => credits other (mem_cons_of_mem req listed)

theorem Renewals.credits (renewals : Renewals reqs) : Credits reqs :=
  fun req listed => (renewals req listed).1

theorem Renewals.grants (renewals : Renewals reqs) : grants reqs = 0 := by
  induction reqs with
  | nil => rfl
  | cons req reqs ih =>
    rw [grants_cons, (renewals req mem_cons_self).2,
      ih fun other listed => renewals other (mem_cons_of_mem req listed)]

theorem admit_served {credit : Mesh.Credit} (reading : answers.topic.all (·.cls = .reading) = true)
    (checked : checkSubscribe registry e.peer e.sub topic schema policy raw credit answers now = .ok a)
    (admitted : a.enter e.hub served fails = .ok table) :
    ∃ s, table.lookup e.key = some s ∧ s.tap = none ∧ s.credit.n = min credit.n (e.hub.window * 4) := by
  simp only [checkSubscribe, bind_ok_iff, pure_ok_iff, require_ok_iff] at checked
  obtain ⟨_, -, t, found, _, -, _, -, view, -, _, -, _, -, _, -, _, -, _, -, rfl⟩ := checked
  simp only [Admission.enter, bind_ok_iff, pure_ok_iff] at admitted
  obtain ⟨_, -, _, -, _, -, tap, opened, rfl⟩ := admitted
  have cls : t.cls = .reading := by
    have listed := (filter_eq_some_iff.mp found).1
    rw [listed] at reading
    simpa using reading
  refine ⟨_, Table.lookup_insert_self .., ?_, rfl⟩
  cases fails with
  | none =>
    simp only [Admission.open, cls] at opened
    cases opened
    rfl
  | some why => cases opened

theorem stage_subscribed (fits : e.mesh.window ≤ e.hub.window * 4) (fresh : Fresh e p r) (owed : Renewals p.owed)
    (reqs : Renewals p.reqs)
    (reading : answers.topic.all (·.cls = .reading) = true) (others : List (SubKey × Served)) (fails : Option String)
    (now : Nat) (accepts : Bool) {raw : Bool} :
    Stage e (p.subscribe e registry answers others fails now accepts topic schema policy raw
      ⟨e.mesh.window, bytes⟩) := by
  have quiet : Credits p.granting.toList := by
    rw [fresh.granting]
    exact fun _ => nofun
  have opened : Open p r := { fresh with owed := owed, reqs := reqs.credits, granting := quiet }
  have frames : p.data = [] ∧ p.pumping.frames e.sub = [] := append_eq_nil_iff.mp fresh.flight
  unfold Pair.subscribe
  dsimp only
  split
  · rename_i table entered
    obtain ⟨a, checked, admitted⟩ := bind_ok_iff.mp entered
    obtain ⟨s, found, tap, credit⟩ := admit_served reading checked admitted
    have bound : Granted e.mesh r := ⟨fresh.outstanding.le, fun some => by rw [fresh.outstanding]; omega⟩
    refine .serving s r { opened with served := found, tap := tap, bound := bound, account := ?_, flight := ?_ }
    · change r.outstanding = s.credit.n + (p.flight e).length + grants p.requests
      rw [fresh.flight, Pair.requests, fresh.granting, grants_append, grants_append, owed.grants, reqs.grants, credit]
      simpa using fresh.outstanding.trans (min_eq_left fits).symm
    · change ∀ f ∈ p.flight e, isReading f = true
      rw [fresh.flight]
      exact fun _ => nofun
  · rename_i why _
    refine .finished r [] (taken accepts (.error e.sub why.code.name why.message)) { opened with
      served := fresh.served, ending := fresh.ending, flight := ?_, all := fun _ => nofun, ends := ?_, one := ?_ }
    · simp only [Pair.flight, frames.1, frames.2, nil_append, append_nil]
    · intro f listed
      unfold taken at listed
      split_ifs at listed
      · rw [mem_singleton.mp listed]
        rfl
      · cases listed
    · unfold taken
      split_ifs <;> simp

theorem Stage.credited (fits : e.mesh.window ≤ e.hub.window * 4) (stage : Stage e p) {credit : Mesh.Credit}
    (head : p.reqs = .credit sub credit :: rest) (now : Nat) :
    Stage e { p with served := p.served.map (·.grant e.hub credit now), reqs := rest } := by
  have nothing (absent : p.served = none) : p.served.map (·.grant e.hub credit now) = none := by rw [absent]; rfl
  cases stage with
  | left remote => exact .left remote
  | waiting r on => exact .waiting r { on with served := nothing on.served, reqs := (head ▸ on.reqs).tail }
  | asking r on => exact .asking r { on with served := nothing on.served, reqs := (head ▸ on.reqs).tail }
  | asked r before after on =>
    have reqs := on.reqs
    cases before with
    | nil =>
      rw [head, nil_append] at reqs
      cases congrArg isCredit (head_eq_of_cons_eq reqs)
    | cons first before =>
      rw [head, cons_append] at reqs
      exact .asked r before after { on with
        served := nothing on.served, reqs := tail_eq_of_cons_eq reqs, credits := on.credits.tail }
  | serving s r on =>
    refine .serving (s.grant e.hub credit now) r { on with
      served := by rw [on.served]; rfl, tap := on.tap, account := ?_, reqs := (head ▸ on.reqs).tail }
    have account := on.account
    have room : s.credit.n + credit.n ≤ e.hub.window * 4 := by
      have most := on.bound.most
      simp only [Pair.requests, head, grants_append, grants_cons, granted] at account
      omega
    have added : (s.grant e.hub credit now).credit.n = s.credit.n + credit.n := min_eq_left room
    simp only [Pair.requests, head, grants_append, grants_cons, granted] at account ⊢
    change r.outstanding = _ + (p.flight e).length + _
    omega
  | finished r readings last on =>
    exact .finished r readings last { on with served := nothing on.served, reqs := (head ▸ on.reqs).tail }

theorem Stage.asked_head (stage : Stage e p) (head : p.reqs = req :: rest) (kind : isCredit req = false) :
    p.remote = none ∨ ∃ r, req = r.request e.mesh e.sub ∧ Fresh e p r ∧ Renewals p.owed ∧ Renewals rest := by
  have nobody {P : Prop} {reqs : List TopicReq} (listed : req ∈ reqs) (credits : Credits reqs) : P := by
    have credit := credits req listed
    rw [kind] at credit
    cases credit
  have first : req ∈ p.reqs := head ▸ mem_cons_self
  cases stage with
  | left remote => exact .inl remote
  | waiting r on | asking r on | serving s r on | finished r readings last on => exact nobody first on.reqs
  | asked r before after on =>
    have reqs := on.reqs
    cases before with
    | nil =>
      rw [head, nil_append] at reqs
      obtain ⟨asked, rfl⟩ := cons.inj reqs
      exact .inr ⟨r, asked, on.toFresh, on.owed, on.renewals⟩
    | cons credit before =>
      rw [head, cons_append] at reqs
      exact nobody (head_eq_of_cons_eq reqs ▸ mem_cons_self) on.credits

theorem Stage.request (fits : e.mesh.window ≤ e.hub.window * 4) (stage : Stage e p) (registry : Registry)
    (answers : Answers)
    (others : List (SubKey × Served)) (fails : Option String) (now : Nat) (accepts : Bool) :
    Stage e (p.request e registry answers others fails now accepts) := by
  unfold Pair.request
  cases head : p.reqs with
  | nil => exact stage
  | cons req rest =>
    cases req with
    | credit sub credit => exact stage.credited fits head now
    | unsubscribe sub =>
      obtain remote | ⟨r, asked, -⟩ := stage.asked_head head rfl
      · exact .left remote
      · cases asked
    | subscribe sub topic =>
      dsimp only
      by_cases reading : answers.topic.all (·.cls = .reading) = true
      · rw [if_pos reading]
        obtain remote | ⟨r, asked, fresh, owed, renewals⟩ := stage.asked_head head rfl
        · refine .left ?_
          unfold Pair.subscribe
          dsimp only
          split <;> exact remote
        · cases asked
          have still : Fresh e { p with reqs := rest } r := { fresh with }
          exact stage_subscribed fits still owed renewals reading others fails now accepts
      · rw [if_neg reading]
        exact stage

end

/-! ### The subscriber -/

variable {f : TopicData} {rest : List TopicData}

section
variable {e : Ends} {p : Pair}

theorem take_account (now : Nat) (positive : 0 < r.outstanding) (bound : Granted cfg r) :
    (r.take cfg now).2.outstanding + 1 = r.outstanding + (r.take cfg now).1 ∧ Granted cfg (r.take cfg now).2 := by
  have most := bound.most
  unfold Remote.take
  dsimp only
  split_ifs with half
  · exact ⟨by dsimp only; omega, le_rfl, fun some => Nat.div_lt_self some one_lt_two⟩
  · exact ⟨by dsimp only; omega, by dsimp only; omega, fun _ => Nat.lt_of_not_le half⟩

theorem take_phase (r : Remote) (now : Nat) : (r.take cfg now).2.phase = .open := by
  unfold Remote.take
  dsimp only
  split_ifs <;> rfl

theorem broke_phase (r : Remote) (why : String) (now : Nat) : (r.broke cfg why now).phase ≠ .open := by
  simp [Remote.broke]

theorem isEnd_of_reading (reading : isReading f = true) : isEnd f = false := by
  cases f with
  | reading => rfl
  | _ => cases reading

def grantOf (sub n : Nat) : Option TopicReq := if n = 0 then none else some (.credit sub ⟨n, 0⟩)

theorem grants_grantOf (sub n : Nat) : grants (grantOf sub n).toList = n := by
  unfold grantOf
  split_ifs with zero
  · exact zero.symm
  · simp [granted]

theorem credits_grantOf (sub n : Nat) : Credits (grantOf sub n).toList := by
  unfold grantOf
  split_ifs
  · exact fun _ => nofun
  · intro req listed
    rw [toList_some, mem_singleton] at listed
    rw [listed]
    rfl

theorem reading_eq (remote : p.remote = some r) (now : Nat) :
    p.reading e now = { p with
      remote := some (r.take e.mesh now).2
      granting := grantOf e.sub (r.take e.mesh now).1 } := by
  rw [Pair.reading, remote]
  rfl

section
variable (stage : Stage e p)
include stage

theorem Stage.takes (idle : p.granting = none) (head : p.data = f :: rest)
    (reading : isReading f = true) (now : Nat) : Stage e ({ p with data := rest }.reading e now) := by
  have flight : p.flight e = f :: (rest ++ p.pumping.frames e.sub) := by rw [Pair.flight, head, cons_append]
  have busy : p.flight e ≠ [] := by rw [flight]; exact cons_ne_nil _ _
  cases stage with
  | left remote =>
    refine .left ?_
    rw [Pair.reading]
    rw [remote]
  | waiting r on | asking r on | asked r before after on => exact absurd on.flight busy
  | serving s r on =>
    have here : (({ p with data := rest } : Pair)).remote = some r := on.remote
    have account := on.account
    rw [reading_eq here]
    simp only [flight, length_cons, Pair.requests, idle, toList_none, nil_append] at account
    have taken := take_account e.mesh now (by omega) on.bound
    refine .serving s _ { on with
      remote := rfl, phase := take_phase .., bound := taken.2, account := ?_, granting := credits_grantOf _ _
      flight := fun g listed => on.flight g (flight ▸ mem_cons_of_mem f listed) }
    change _ = s.credit.n + (rest ++ p.pumping.frames e.sub).length + grants (_ ++ p.reqs ++ p.owed)
    rw [append_assoc, grants_append, grants_grantOf]
    omega
  | finished r readings last on =>
    have here : (({ p with data := rest } : Pair)).remote = some r := on.remote
    have frames := on.flight
    rw [reading_eq here]
    cases readings with
    | nil =>
      rw [flight, nil_append] at frames
      have isLast := on.ends f (frames ▸ mem_cons_self)
      rw [isEnd_of_reading reading] at isLast
      cases isLast
    | cons first readings =>
      rw [flight, cons_append] at frames
      exact .finished _ readings last { on with
        remote := rfl, phase := take_phase .., flight := tail_eq_of_cons_eq frames, granting := credits_grantOf _ _
        all := fun g listed => on.all g (mem_cons_of_mem first listed) }

theorem Stage.breaks (idle : p.granting = none) (head : p.data = f :: rest)
    (closes : isReading f = false) (why : String) (now : Nat) :
    Stage e { p with data := rest, remote := p.remote.map (·.broke e.mesh why now) } := by
  have flight : p.flight e = f :: (rest ++ p.pumping.frames e.sub) := by rw [Pair.flight, head, cons_append]
  have busy : p.flight e ≠ [] := by rw [flight]; exact cons_ne_nil _ _
  have notReading : isReading f ≠ true := by rw [closes]; exact Bool.false_ne_true
  cases stage with
  | left remote =>
    refine .left ?_
    rw [remote]
    rfl
  | waiting r on | asking r on | asked r before after on => exact absurd on.flight busy
  | serving s r on => exact absurd (on.flight f (flight ▸ mem_cons_self)) notReading
  | finished r readings last on =>
    have frames := on.flight
    cases readings with
    | cons first readings =>
      rw [flight, cons_append] at frames
      exact absurd (head_eq_of_cons_eq frames ▸ on.all first mem_cons_self) notReading
    | nil =>
      have one := on.one
      rw [flight, nil_append] at frames
      have empty : rest ++ p.pumping.frames e.sub = [] := by
        rw [← frames, length_cons] at one
        exact length_eq_zero_iff.mp (by omega)
      exact .waiting (r.broke e.mesh why now) { on with
        flight := empty, granting := idle, remote := by rw [on.remote]; rfl, phase := broke_phase _ _ _ _ }

theorem Stage.skips (head : p.data = f :: rest) (notReading : isReading f = false)
    (notEnd : isEnd f = false) : Stage e { p with data := rest } := by
  have flight : f ∈ p.flight e := by
    rw [Pair.flight, head]
    exact mem_cons_self
  cases stage with
  | left remote => exact .left remote
  | waiting r on | asking r on | asked r before after on => exact absurd on.flight (ne_nil_of_mem flight)
  | serving s r on => cases notReading.symm.trans (on.flight f flight)
  | finished r readings last on =>
    rw [on.flight] at flight
    rcases mem_append.mp flight with among | among
    · cases notReading.symm.trans (on.all f among)
    · cases notEnd.symm.trans (on.ends f among)

theorem Stage.receive (now : Nat) : Stage e (p.receive e now) := by
  cases idle : p.granting with
  | some req =>
    have same : p.receive e now = p := by rw [Pair.receive, idle]
    rw [same]
    exact stage
  | none =>
    cases head : p.data with
    | nil =>
      have same : p.receive e now = p := by rw [Pair.receive, idle, head]
      rw [same]
      exact stage
    | cons f rest =>
      have takes : p.receive e now = { p with data := rest }.onData e now f := by rw [Pair.receive, idle, head]
      rw [takes]
      cases f with
      | reading => exact stage.takes idle head rfl now
      | ended sub why => exact stage.breaks idle head rfl why now
      | error => exact stage.breaks idle head rfl _ now
      | chunk | blob | blobError => exact stage.skips head rfl rfl

end

theorem forall_taken {P : TopicReq → Prop} (all : ∀ other ∈ reqs, P other) (one : P req) (accepts : Bool) :
    ∀ other ∈ reqs ++ taken accepts req, P other := by
  intro other listed
  rcases mem_append.mp listed with old | new
  · exact all other old
  · unfold taken at new
    split_ifs at new
    · rw [mem_singleton.mp new]
      exact one
    · cases new

theorem Stage.grant (stage : Stage e p)
    (takes : ∀ req, p.granting = some req → isCredit req = true → accepts = true) : Stage e (p.grant accepts) := by
  unfold Pair.grant
  cases granting : p.granting with
  | none => exact stage
  | some req =>
    have granted : p.granting ≠ none := by rw [granting]; exact some_ne_none req
    have isOne (credits : Credits p.granting.toList) : isCredit req = true :=
      credits req (by rw [granting, toList_some]; exact mem_cons_self)
    cases stage with
    | left remote => exact .left remote
    | waiting r on | asking r on | asked r before after on => exact absurd on.granting granted
    | serving s r on =>
      have credit := isOne on.granting
      refine .serving s r { on with
        account := ?_, reqs := forall_taken on.reqs credit accepts, granting := fun _ => nofun }
      rw [on.account]
      simp only [Pair.requests, granting, takes req granting credit, taken, if_true, toList_none, toList_some,
        nil_append, grants_append, grants_cons, grants_nil]
      change _ + (p.flight e).length + _ = _ + (p.flight e).length + _
      omega
    | finished r readings last on =>
      exact .finished r readings last { on with
        reqs := forall_taken on.reqs (isOne on.granting) accepts, granting := fun _ => nofun }

/-- What `mesh_due` does to one subscription: it goes with its last reader, it stays and may be
renewed, or one that is not open subscribes again. -/
inductive Dues (cfg : MeshConfig) (id : Nat) (r : Remote) : Option Remote → List TopicReq → Prop
  | gone (out : List TopicReq) : Dues cfg id r none out
  | stays (renewed : Nat) (out : List TopicReq) (renewals : Renewals out) :
      Dues cfg id r (some { r with renewed := renewed }) out
  | asks (o : Offer) (now : Nat) (notOpen : r.phase ≠ .open) :
    Dues cfg id r (some (r.follow cfg o now)) [(r.follow cfg o now).request cfg id]

theorem renew_of_not_open {cfg : MeshConfig} {id now : Nat} (notOpen : r.phase ≠ .open) :
    r.renew cfg id now = (r, []) := by
  rw [Remote.renew, if_neg (by simp [notOpen])]

theorem renew_renewed (r : Remote) (id now : Nat) :
    ∃ renewed, (r.renew cfg id now).1 = { r with renewed := renewed } ∧
      Renewals ((r.renew cfg id now).2.map (·.2)) := by
  unfold Remote.renew
  split_ifs
  · refine ⟨now, rfl, fun req listed => ?_⟩
    rw [map_singleton, mem_singleton] at listed
    rw [listed]
    exact ⟨rfl, rfl⟩
  · exact ⟨r.renewed, rfl, fun _ => nofun⟩

theorem owe_dues (offers : Key → Option Offer) (subs : List (Nat × Broker.Sub)) (now id : Nat) (r : Remote)
    (topics : Key → Option Broker.Topic) :
    Dues cfg id r ((owe cfg offers subs now ⟨topics, [], [], []⟩ (id, r)).remote.lookup id)
      ((owe cfg offers subs now ⟨topics, [], [], []⟩ (id, r)).out.map (·.2)) := by
  unfold owe
  dsimp only
  by_cases readers : (subs.any fun sub => Mesh.readsRemote r sub.2) = true
  · rw [if_pos readers]
    by_cases isOpen : r.phase = .open
    · -- an open subscription is not due
      obtain ⟨renewed, same, renewals⟩ := renew_renewed cfg r id now
      have notDue : (r.renew cfg id now).1.due now = false := by rw [same, Remote.due, isOpen]
      have nothing (offer : Option Offer) : offer.filter (fun _ => false) = none := by cases offer <;> rfl
      simp only [notDue, Bool.and_false, nothing, nil_append, lookup_cons, BEq.rfl]
      rw [same]
      exact .stays renewed _ renewals
    · simp only [renew_of_not_open isOpen, nil_append]
      split
      · simp only [lookup_cons, BEq.rfl, map_nil]
        exact .stays r.renewed [] fun _ => nofun
      · simp only [lookup_cons, BEq.rfl, map_cons, map_nil]
        exact .asks _ now isOpen
  · rw [if_neg readers]
    exact .gone _

theorem due_eq (remote : p.remote = some r) (sent : p.owed = []) (offer : Option Offer) (subs : List (Nat × Broker.Sub))
    (now : Nat) :
    ∃ next out, Dues e.mesh e.sub r next out ∧ p.due e offer subs now = { p with remote := next, owed := out } := by
  refine ⟨_, _, owe_dues e.mesh (fun _ => offer.map fun o => { o with node := e.source }) subs now e.sub r fun _ =>
    none, ?_⟩
  rw [Pair.due, remote, sent]

theorem Stage.due (stage : Stage e p) (offer : Option Offer) (subs : List (Nat × Broker.Sub)) (now : Nat) :
    Stage e (p.due e offer subs now) := by
  cases remote : p.remote with
  | none =>
    have same : p.due e offer subs now = p := by rw [Pair.due, remote]
    rw [same]
    exact stage
  | some r =>
    cases owed : p.owed with
    | cons req rest =>
      have same : p.due e offer subs now = p := by rw [Pair.due, remote, owed]
      rw [same]
      exact stage
    | nil =>
      obtain ⟨next, out, dues, same⟩ := due_eq (e := e) remote owed offer subs now
      rw [same]
      cases dues with
      | gone out => exact .left rfl
      | asks o now notOpen =>
        cases stage with
        | left gone => cases remote.symm.trans gone
        | waiting r' on => exact .asking _ { on with remote := rfl, phase := rfl, outstanding := rfl, owed := rfl }
        | asking r' on | asked r' before after on | serving s r' on | finished r' readings last on =>
          cases remote.symm.trans on.remote
          exact absurd on.phase notOpen
      | stays renewed out renewals =>
        cases stage with
        | left gone => cases remote.symm.trans gone
        | waiting r' on =>
          cases remote.symm.trans on.remote
          exact .waiting _ { on with remote := rfl, phase := on.phase, owed := renewals }
        | asking r' on => cases owed.symm.trans on.owed
        | asked r' before after on =>
          cases remote.symm.trans on.remote
          exact .asked _ before after { on with
            remote := rfl, phase := on.phase, outstanding := on.outstanding, owed := renewals, reqs := on.reqs }
        | serving s r' on =>
          cases remote.symm.trans on.remote
          refine .serving s _ { on with
            remote := rfl, phase := on.phase, bound := ⟨on.bound.most, on.bound.half⟩, account := ?_, owed := renewals }
          have account := on.account
          simp only [Pair.requests, owed, append_nil] at account
          change r.outstanding = s.credit.n + (p.flight e).length + grants (p.granting.toList ++ p.reqs ++ out)
          rw [grants_append, renewals.grants]
          exact account
        | finished r' readings last on =>
          cases remote.symm.trans on.remote
          exact .finished _ readings last { on with remote := rfl, phase := on.phase, owed := renewals }

theorem Stage.sendOwed (stage : Stage e p) (accepts : Bool) : Stage e (p.sendOwed accepts) := by
  unfold Pair.sendOwed
  cases head : p.owed with
  | nil => exact stage
  | cons req rest =>
    have one (renewals : Renewals p.owed) : isCredit req = true ∧ granted req = 0 :=
      renewals req (head ▸ mem_cons_self)
    have tail (renewals : Renewals p.owed) : Renewals rest :=
      fun other listed => renewals other (head ▸ mem_cons_of_mem req listed)
    cases stage with
    | left remote => exact .left remote
    | waiting r on =>
      exact .waiting r { on with owed := tail on.owed, reqs := forall_taken on.reqs (one on.owed).1 accepts }
    | asking r on =>
      obtain ⟨rfl, rfl⟩ := cons.inj (head.symm.trans on.owed)
      cases accepts with
      | true =>
        exact .asked r p.reqs [] { on with
          owed := fun _ => nofun, reqs := rfl, credits := on.reqs, renewals := fun _ => nofun }
      | false =>
        refine .finished r [] [] { on with
          all := fun _ => nofun, ends := fun _ => nofun, one := Nat.zero_le 1, owed := fun _ => nofun
          reqs := ?_, granting := ?_ }
        · show Credits (p.reqs ++ [])
          rw [append_nil]
          exact on.reqs
        · rw [on.granting]
          exact fun _ => nofun
    | asked r before after on =>
      refine .asked r before (after ++ taken accepts req) { on with
        owed := tail on.owed, reqs := ?_, renewals := forall_taken on.renewals (one on.owed) accepts }
      show p.reqs ++ taken accepts req = _
      rw [on.reqs, append_assoc, cons_append]
    | serving s r on =>
      refine .serving s r { on with
        account := ?_, owed := tail on.owed, reqs := forall_taken on.reqs (one on.owed).1 accepts }
      have zero := (one on.owed).2
      have moved : grants (taken accepts req) = 0 := by
        unfold taken
        split_ifs
        · simpa using zero
        · rfl
      rw [on.account]
      simp only [Pair.requests, head, grants_append, grants_cons, zero, moved]
      change _ + (p.flight e).length + _ = _ + (p.flight e).length + _
      omega
    | finished r readings last on =>
      exact .finished r readings last { on with
        owed := tail on.owed, reqs := forall_taken on.reqs (one on.owed).1 accepts }

end

def lossless (p : Pair) : Act → Bool
  | .pumpNext accepts =>
    match p.pumping with
    | .sending (_ :: _) _ => accepts
    | _ => true
  | .grant accepts => accepts || p.granting.all fun req => !isCredit req
  | _ => true

section
variable {e : Ends} {p : Pair}

theorem Stage.step (fits : e.mesh.window ≤ e.hub.window * 4) (stage : Stage e p)
    (takes : lossless p act = true) : Stage e (step e p act) := by
  cases act with
  | publish d => exact stage.publish d
  | pump =>
    simp only [Credit.step]
    split
    · rename_i idle
      exact stage.pump idle
    · exact stage
  | pumpNext accepts =>
    refine stage.pumpNext fun f out exceeded pumping => ?_
    rw [lossless, pumping] at takes
    exact takes
  | request registry answers others fails now accepts =>
    exact stage.request fits registry answers others fails now accepts
  | data now => exact stage.receive now
  | grant accepts =>
    refine stage.grant fun req granting credit => ?_
    rw [lossless, granting] at takes
    simpa [credit] using takes
  | due offer subs now => exact stage.due offer subs now
  | sendOwed accepts => exact stage.sendOwed accepts

theorem stage_new (e : Ends) (ask : Ask) : Stage e (Pair.new ask) :=
  .waiting ask.remote ⟨⟨rfl, rfl, rfl, rfl⟩, rfl, by simp [Ask.remote], fun _ => nofun, fun _ => nofun⟩

/-- The subscription is open on both sides, and neither a reading nor an end nor credit is on
its way. -/
structure Quiet (e : Ends) (p : Pair) (s : Served) (r : Remote) : Prop where
  served : p.served = some s
  remote : p.remote = some r
  phase : r.phase = .open
  flight : ∀ f ∈ p.flight e, isReading f = false ∧ isEnd f = false
  requests : ∀ req ∈ p.requests, isCredit req = false

theorem Stage.quiet (stage : Stage e p) (quiet : Quiet e p s r) : r.outstanding = s.credit.n ∧ Granted e.mesh r := by
  have here : p.served ≠ none := by rw [quiet.served]; exact some_ne_none s
  cases stage with
  | left remote => cases remote.symm.trans quiet.remote
  | waiting r' on | asking r' on | asked r' before after on | finished r' readings last on =>
    exact absurd on.served here
  | serving s' r' on =>
    obtain rfl : s' = s := some.inj (on.served.symm.trans quiet.served)
    obtain rfl : r' = r := some.inj (on.remote.symm.trans quiet.remote)
    have account := on.account
    have still : p.flight e = [] := by
      rw [eq_nil_iff_forall_not_mem]
      intro f listed
      cases (quiet.flight f listed).1.symm.trans (on.flight f listed)
    have none : p.requests = [] := by
      rw [eq_nil_iff_forall_not_mem]
      intro req listed
      have credit : isCredit req = true := by
        simp only [Pair.requests, mem_append] at listed
        rcases listed with (listed | listed) | listed
        · exact on.granting req listed
        · exact on.reqs req listed
        · exact (on.owed req listed).1
      cases (quiet.requests req listed).symm.trans credit
    rw [still, none] at account
    exact ⟨account, on.bound⟩

end

theorem no_credit_deadlock (e : Ends) (ask : Ask) (acts : List Act) (fits : e.mesh.window ≤ e.hub.window * 4)
    (takes : Along (step e) (fun p act => lossless p act = true) (Pair.new ask) acts) (s : Served) (r : Remote)
    (quiet : Quiet e (run (step e) (Pair.new ask) acts) s r) :
    (s.credit.n = 0 → r.outstanding ≤ e.mesh.window / 2) ∧ r.outstanding = s.credit.n ∧
      (0 < e.mesh.window → e.mesh.window / 2 < s.credit.n) := by
  have stage : Stage e (run (step e) (Pair.new ask) acts) :=
    run_keeps (fun p act stage ok => stage.step fits ok) (stage_new e ask) takes
  obtain ⟨same, bound⟩ := stage.quiet quiet
  refine ⟨fun spent => ?_, same, fun some => same ▸ bound.half some⟩
  rw [same, spent]
  exact Nat.zero_le _

/-! ### A sensor and its reader -/

def bench (hubWindow : Nat) : Ends :=
  ⟨"n1", "n2", 1, ⟨fun _ => 2, fun _ => [], false⟩, ⟨hubWindow, 1048576, 256, 256⟩, ⟨64, 1048576, 10, 30, none⟩⟩

def registry : Registry := fun _ _ => .ok ⟨.paired, false, none, none⟩

def answers : Answers := ⟨some ⟨"senml.v1", .reading, some "a", some "p"⟩, some ⟨600, 4194304, 16, 30⟩, AllowAll⟩

def asksFor : Ask :=
  ⟨"weftos://home/sensors/k1/topics/temp", ("temp", "k1"), "senml.v1", false, ⟨"temp", "senml.v1", .dropOldest⟩, "n2",
    none, false,
    [], [], ⟨.subscribe, "b", "board", none, "temp/k1", "senml.v1", none⟩, 0⟩

def opens : List Act :=
  [.due (some ⟨"n2", "senml.v1", .reading, none, 100⟩) [(7, ⟨"b", none, "temp", some "k1", "senml.v1", []⟩)] 1,
    .sendOwed true,
    .request registry answers [] none 1 true]

def measures (accepts : Bool) : List Act :=
  [.publish ⟨7, "temp/k1", "senml.v1", "k1", "n2", 10, 1, 11, .null⟩, .pump registry ⟨fun _ => true, fun _ => true⟩ 1,
    .pumpNext accepts, .pumpNext true]

def arrives : List Act := [.data 2, .grant true, .request registry answers [] none 2 true]

def times (n : Nat) (acts : List Act) : List Act := (replicate n acts).flatten

def atRest (e : Ends) (p : Pair) : Option (Nat × Nat) :=
  match p.served, p.remote with
  | some s, some r =>
    if r.phase = .open && (p.flight e).isEmpty && p.requests.isEmpty then some (s.credit.n, r.outstanding) else none
  | _, _ => none

def fortyReadings : List Act := opens ++ times 40 (measures true ++ arrives)

theorem quiet_of_atRest (rest : atRest e p = some (credit, outstanding)) :
    ∃ s r, Quiet e p s r ∧ s.credit.n = credit ∧ r.outstanding = outstanding := by
  unfold atRest at rest
  split at rest
  · rename_i s r served remote
    split_ifs at rest with still
    cases rest
    simp only [Bool.and_eq_true, decide_eq_true_eq, List.isEmpty_iff] at still
    refine ⟨s, r, ⟨served, remote, still.1.1, ?_, ?_⟩, rfl, rfl⟩
    · rw [still.1.2]
      exact fun _ => nofun
    · rw [still.2]
      exact fun _ => nofun
  · cases rest

theorem no_credit_deadlock_forty : ∃ s r, Quiet (bench 64) (run (step (bench 64)) (Pair.new asksFor) fortyReadings) s
    r ∧
    r.outstanding = 56 ∧ r.outstanding = s.credit.n ∧ 64 / 2 < s.credit.n := by
  have rest : atRest (bench 64) (run (step (bench 64)) (Pair.new asksFor) fortyReadings) =
    some (56, 56) := by decide +kernel
  obtain ⟨s, r, quiet, -, count⟩ := quiet_of_atRest rest
  have result := no_credit_deadlock (bench 64) asksFor fortyReadings (by decide) (by decide +kernel) s r quiet
  exact ⟨s, r, quiet, count, result.2.1, result.2.2 (by decide)⟩

/-- The source has no credit, the subscriber waits for more than half the window and nothing is on its way. -/
theorem credit_lost :
    atRest (bench 64) (run (step (bench 64)) (Pair.new asksFor) (opens ++ times 64 (measures false))) = some (0, 64) ∧
    atRest (bench 4) (run (step (bench 4)) (Pair.new asksFor) (opens ++ times 16 (measures true ++ arrives))) =
      some (0, 48) := by
  decide +kernel

end Weftos.Bus.Credit
