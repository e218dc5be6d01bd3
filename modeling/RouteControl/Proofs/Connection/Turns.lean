import Mathlib.Data.List.Nodup
import RouteControl.Proofs.Connection.Progress

/-!
# Turns

Calls share a connection, and a call is admitted only while no other has it.  In whatever order the
calls are scheduled, each has one turn, and the turns follow one another (`Floor.Valid.run`): each
turn starts from the connection that the turn before it left (`Row`).
-/

namespace RouteControl.Connection

/-- A call of `request`, with the connection that it was admitted to and what it did so far. -/
structure Turn where
  caller : Nat
  draft : Draft
  before : Connection
  acts : List Act
  progress : Progress

namespace Turn

def seq (t : Turn) : UInt32 := t.before.nextSeq

def sent (t : Turn) : List Bytes := t.acts.filterMap Act.sent?

def received (t : Turn) : List Script.Reply := t.acts.filterMap Act.received?

def log (t : Turn) : List (Nat × Act) := t.acts.map fun act => (t.caller, act)

def result (t : Turn) : Except Error Response := (t.before.run (request t.draft)).1

def after (t : Turn) : Connection := (t.before.run (request t.draft)).2

def start (caller : Nat) (d : Draft) (c : Connection) : Turn where
  caller := caller
  draft := d
  before := c
  acts := [.admitted c.nextSeq]
  progress := .sending (c.numbered d) c.nextSeq c.settings.transmissions

def next (t : Turn) (move : Move) : Turn :=
  { t with acts := t.acts ++ move.act.toList, progress := move.progress }

/-- The turn has come to this connection. -/
structure Reaches (t : Turn) (c : Connection) : Prop where
  resumed : c.run (resume t.progress) = (t.result, t.after)
  bears : t.progress.Bears (t.before.numbered t.draft) t.seq
  admitted : t.acts.head? = some (.admitted t.seq)
  sent_eq : c.kernel.sent = t.before.kernel.sent ++ t.sent
  replies_eq : t.before.kernel.replies = t.received ++ c.kernel.replies
  messages : ∀ m ∈ t.sent, m = t.before.numbered t.draft
  nextSeq_eq : c.nextSeq = t.before.nextSeq + 1

theorem start_reaches (caller : Nat) (d : Draft) (c : Connection) :
    (start caller d c).Reaches c.numbering where
  resumed := rfl
  bears := ⟨rfl, rfl⟩
  admitted := rfl
  sent_eq := (List.append_nil _).symm
  replies_eq := rfl
  messages := by simp [sent, start, Act.sent?]
  nextSeq_eq := rfl

theorem Reaches.next {t : Turn} {c : Connection} (h : t.Reaches c) :
    (t.next (advance t.progress c)).Reaches (advance t.progress c).connection := by
  have hmove := advance_accounts h.bears c
  have hsent : (t.next (advance t.progress c)).sent =
      t.sent ++ (advance t.progress c).act.toList.filterMap Act.sent? :=
    List.filterMap_append ..
  have hreceived : (t.next (advance t.progress c)).received =
      t.received ++ (advance t.progress c).act.toList.filterMap Act.received? :=
    List.filterMap_append ..
  constructor
  case resumed => exact (run_resume_advance t.progress c).trans h.resumed
  case bears => exact hmove.bears
  case admitted =>
      obtain ⟨first, hfirst⟩ := List.head?_eq_some_iff.1 h.admitted
      simp only [Turn.next, hfirst, List.cons_append, List.head?_cons]
      rfl
  case sent_eq =>
      rw [hmove.sent_eq, h.sent_eq, hsent, List.append_assoc]
      rfl
  case replies_eq =>
      rw [hreceived, List.append_assoc, ← hmove.replies_eq]
      exact h.replies_eq
  case messages =>
      rw [hsent]
      exact List.forall_mem_append.2 ⟨h.messages, hmove.messages⟩
  case nextSeq_eq => exact hmove.nextSeq_eq.trans h.nextSeq_eq

theorem Reaches.of_ended {t : Turn} {c : Connection} (h : t.Reaches c)
    {result : Except Error Response} (hover : t.progress = .ended result) :
    result = t.result ∧ c = t.after := by
  have hresumed := h.resumed
  rw [hover, resume, run_ofExcept] at hresumed
  exact Prod.ext_iff.1 hresumed

end Turn

/-- Turns that follow one another, from one connection to another. -/
def Row : Connection → List Turn → Connection → Prop
  | first, [], last => first = last
  | first, t :: turns, last => t.before = first ∧ ∃ c, t.Reaches c ∧ Row c turns last

variable {first last : Connection} {ts : List Turn}

private theorem row_concat {t : Turn} :
    Row first (ts ++ [t]) last ↔ Row first ts t.before ∧ t.Reaches last := by
  induction ts generalizing first with
  | nil =>
      constructor
      · rintro ⟨hbefore, c, hreaches, rfl⟩
        exact ⟨hbefore.symm, hreaches⟩
      · rintro ⟨hbefore, hreaches⟩
        exact ⟨hbefore.symm, last, hreaches, rfl⟩
  | cons head ts ih =>
      constructor
      · rintro ⟨hbefore, c, hhead, hrow⟩
        obtain ⟨hts, hreaches⟩ := ih.1 hrow
        exact ⟨⟨hbefore, c, hhead, hts⟩, hreaches⟩
      · rintro ⟨⟨hbefore, c, hhead, hts⟩, hreaches⟩
        exact ⟨hbefore, c, hhead, ih.2 ⟨hts, hreaches⟩⟩

theorem Row.exists_reaches (h : Row first ts last) {t : Turn} (ht : t ∈ ts) :
    ∃ c, t.Reaches c := by
  induction ts generalizing first with
  | nil => cases ht
  | cons head ts ih =>
      obtain ⟨-, c, hhead, hrow⟩ := h
      rcases List.mem_cons.1 ht with rfl | ht
      · exact ⟨c, hhead⟩
      · exact ih hrow ht

/-! ## Calls that share a connection -/

/-- A connection, the call that has it, the calls that are over, and what all of them did, each act
with the number of its caller. -/
structure Floor where
  connection : Connection
  holder : Option Turn := none
  past : List Turn := []
  log : List (Nat × Act) := []

namespace Floor

/-- The turns so far, in the order of admission. -/
def turns (f : Floor) : List Turn := f.past ++ f.holder.toList

/-- The floor on which a call is admitted. -/
def grant (f : Floor) (caller : Nat) (d : Draft) : Floor :=
  let t := Turn.start caller d f.connection
  { f with connection := f.connection.numbering, holder := some t, log := f.log ++ t.log }

/-- The floor after a step of the call that has the connection, which it gives back when it is
over. -/
def proceed (f : Floor) (t : Turn) : Floor :=
  let move := advance t.progress f.connection
  let ended := move.progress.isEnded
  { connection := move.connection
    holder := if ended then none else some (t.next move)
    past := if ended then f.past ++ [t.next move] else f.past
    log := f.log ++ move.act.toList.map fun act => (t.caller, act) }

/-- A caller is scheduled: its call is admitted or makes a step, or it has to wait, or it is over;
`ds` are the drafts of the callers. -/
def step (ds : List Draft) (f : Floor) (caller : Nat) : Floor :=
  match f.holder with
  | some t => if t.caller = caller then f.proceed t else f
  | none =>
    match ds[caller]? with
    | some d => if caller ∈ f.past.map Turn.caller then f else f.grant caller d
    | none => f

def run (ds : List Draft) (schedule : List Nat) (f : Floor) : Floor :=
  schedule.foldl (step ds) f

theorem run_append (ds : List Draft) (schedule more : List Nat) (f : Floor) :
    run ds (schedule ++ more) f = run ds more (run ds schedule f) :=
  List.foldl_append

/-- The turns of the floor follow one another, and each caller has one at most. -/
structure Valid (first : Connection) (ds : List Draft) (f : Floor) : Prop where
  row : Row first f.turns f.connection
  log_eq : f.log = f.turns.flatMap Turn.log
  running : ∀ t ∈ f.holder, ¬t.progress.isEnded
  ended : ∀ t ∈ f.past, t.progress.isEnded
  drafts : ∀ t ∈ f.turns, ds[t.caller]? = some t.draft
  callers : (f.turns.map Turn.caller).Nodup

variable {ds : List Draft} {f : Floor}

theorem valid_start (c : Connection) (ds : List Draft) : Valid c ds { connection := c } where
  row := rfl
  log_eq := rfl
  running := by simp
  ended := by simp
  drafts := by simp [turns]
  callers := List.nodup_nil

theorem turns_of_none (h : f.holder = none) : f.turns = f.past := by
  simp [turns, h]

private theorem turns_of_some {t : Turn} (h : f.holder = some t) : f.turns = f.past ++ [t] := by
  simp [turns, h]

private theorem turns_proceed (f : Floor) (t : Turn) :
    (f.proceed t).turns = f.past ++ [t.next (advance t.progress f.connection)] := by
  simp only [turns, proceed]
  by_cases hover : (advance t.progress f.connection).progress.isEnded
  · rw [if_pos hover, if_pos hover]
    exact List.append_nil _
  · rw [if_neg hover, if_neg hover]
    rfl

theorem Valid.grant (h : f.Valid first ds) (hholder : f.holder = none) {caller : Nat} {d : Draft}
    (hdraft : ds[caller]? = some d) (hnew : caller ∉ f.past.map Turn.caller) :
    (f.grant caller d).Valid first ds := by
  have hrow := h.row
  have hlog := h.log_eq
  have hdrafts := h.drafts
  have hcallers := h.callers
  rw [turns_of_none hholder] at hrow hlog hdrafts hcallers
  have hturns : (f.grant caller d).turns = f.past ++ [Turn.start caller d f.connection] := rfl
  constructor
  case row =>
      rw [hturns]
      exact row_concat.2 ⟨hrow, Turn.start_reaches caller d f.connection⟩
  case log_eq =>
      rw [hturns, List.flatMap_append, List.flatMap_singleton, ← hlog]
      rfl
  case running =>
      rintro t ⟨⟩
      exact Bool.false_ne_true
  case ended => exact h.ended
  case drafts =>
      rw [hturns]
      exact List.forall_mem_append.2 ⟨hdrafts, List.forall_mem_singleton.2 hdraft⟩
  case callers =>
      rw [hturns, List.map_append, List.map_singleton, ← List.concat_eq_append]
      exact hcallers.concat hnew

theorem Valid.proceed (h : f.Valid first ds) {t : Turn} (hholder : f.holder = some t) :
    (f.proceed t).Valid first ds := by
  have hrow := h.row
  have hlog := h.log_eq
  have hdrafts := h.drafts
  have hcallers := h.callers
  rw [turns_of_some hholder] at hrow hlog hdrafts hcallers
  obtain ⟨hpast, hreaches⟩ := row_concat.1 hrow
  constructor
  case row =>
      rw [turns_proceed]
      exact row_concat.2 ⟨hpast, hreaches.next⟩
  case log_eq =>
      rw [turns_proceed, Floor.proceed, hlog]
      simp [Turn.log, Turn.next]
  case running =>
      rintro t' ht'
      obtain ⟨hrunning, hnext⟩ := Option.ite_none_left_eq_some.1 ht'
      rw [← Option.some.inj hnext]
      exact hrunning
  case ended =>
      simp only [Floor.proceed]
      split
      · rename_i hover
        exact List.forall_mem_append.2 ⟨h.ended, List.forall_mem_singleton.2 hover⟩
      · exact h.ended
  case drafts =>
      rw [turns_proceed]
      obtain ⟨hearlier, hlast⟩ := List.forall_mem_append.1 hdrafts
      have ht : ds[t.caller]? = some t.draft := hlast t (List.mem_singleton_self t)
      exact List.forall_mem_append.2 ⟨hearlier, List.forall_mem_singleton.2 ht⟩
  case callers =>
      rw [turns_proceed]
      rw [List.map_append, List.map_singleton] at hcallers ⊢
      exact hcallers

theorem Valid.step (h : f.Valid first ds) (caller : Nat) : (f.step ds caller).Valid first ds := by
  unfold Floor.step
  split
  · rename_i t hholder
    split
    · exact h.proceed hholder
    · exact h
  · rename_i hholder
    split
    · rename_i d hdraft
      split
      · exact h
      · rename_i hnew
        exact h.grant hholder hdraft hnew
    · exact h

theorem Valid.run (h : f.Valid first ds) (schedule : List Nat) :
    (f.run ds schedule).Valid first ds := by
  induction schedule generalizing f with
  | nil => exact h
  | cons caller schedule ih => exact ih (h.step caller)

/-! ## Calls come to their ends -/

theorem exists_run_of_holder (ds : List Draft) {f : Floor} {t : Turn} (h : f.holder = some t) :
    ∃ more, (f.run ds more).holder = none ∧ f.past <+: (f.run ds more).past ∧
      t.caller ∈ (f.run ds more).past.map Turn.caller := by
  -- Every step either uses up a reply or leaves the request with less to do.
  induction hn : t.progress.todo + f.connection.kernel.replies.length using Nat.strongRecOn
    generalizing f t with
  | ind n ih =>
      have hstep : f.run ds [t.caller] = f.proceed t := by
        show f.step ds t.caller = _
        rw [step, h]
        exact if_pos rfl
      by_cases hover : (advance t.progress f.connection).progress.isEnded
      · have hnone : (f.proceed t).holder = none := if_pos hover
        have hpast : (f.proceed t).past =
            f.past ++ [t.next (advance t.progress f.connection)] := if_pos hover
        refine ⟨[t.caller], ?_⟩
        rw [hstep, hpast]
        exact ⟨hnone, List.prefix_append _ _, by simp [Turn.next]⟩
      · have hholder : (f.proceed t).holder = some (t.next (advance t.progress f.connection)) :=
          if_neg hover
        have hpast : (f.proceed t).past = f.past := if_neg hover
        have hrunning : ¬t.progress.isEnded := by
          intro hlast
          obtain ⟨result, hresult⟩ := Progress.eq_ended hlast
          rw [hresult] at hover
          exact hover rfl
        have hless := advance_todo (Progress.todo_pos hrunning) f.connection
        obtain ⟨more, hnone, hle, hcaller⟩ := ih _ (hn ▸ hless) hholder rfl
        refine ⟨t.caller :: more, ?_⟩
        rw [show t.caller :: more = [t.caller] ++ more from rfl, run_append, hstep]
        exact ⟨hnone, hpast ▸ hle, hcaller⟩

theorem exists_run_of_caller {ds : List Draft} {f : Floor} (h : f.holder = none) {caller : Nat}
    (hcaller : caller < ds.length) :
    ∃ more, (f.run ds more).holder = none ∧ f.past <+: (f.run ds more).past ∧
      caller ∈ (f.run ds more).past.map Turn.caller := by
  by_cases hpast : caller ∈ f.past.map Turn.caller
  · exact ⟨[], h, List.prefix_rfl, hpast⟩
  · have hstep : f.run ds [caller] = f.grant caller ds[caller] := by
      show f.step ds caller = _
      simp only [step, h, List.getElem?_eq_getElem hcaller]
      exact if_neg hpast
    have hholder : (f.grant caller ds[caller]).holder =
        some (Turn.start caller ds[caller] f.connection) := rfl
    obtain ⟨more, hnone, hle, hturn⟩ := exists_run_of_holder ds hholder
    refine ⟨caller :: more, ?_⟩
    rw [show caller :: more = [caller] ++ more from rfl, run_append, hstep]
    exact ⟨hnone, hle, hturn⟩

theorem exists_run_to_end (ds : List Draft) (f : Floor) :
    ∃ more, (f.run ds more).holder = none ∧
      ∀ caller < ds.length, caller ∈ (f.run ds more).past.map Turn.caller := by
  have hfree : ∃ more, (f.run ds more).holder = none := by
    cases hholder : f.holder with
    | none => exact ⟨[], hholder⟩
    | some t =>
        obtain ⟨more, hnone, -⟩ := exists_run_of_holder ds hholder
        exact ⟨more, hnone⟩
  have hsome : ∀ n ≤ ds.length, ∃ more, (f.run ds more).holder = none ∧
      ∀ caller < n, caller ∈ (f.run ds more).past.map Turn.caller := by
    intro n hn
    induction n with
    | zero =>
        obtain ⟨more, hnone⟩ := hfree
        exact ⟨more, hnone, by simp⟩
    | succ n ih =>
        obtain ⟨more, hnone, hcallers⟩ := ih (Nat.le_of_succ_le hn)
        obtain ⟨last, hlast, hle, hturn⟩ := exists_run_of_caller hnone hn
        refine ⟨more ++ last, ?_⟩
        rw [run_append]
        refine ⟨hlast, fun caller hcaller => ?_⟩
        rcases Nat.lt_succ_iff_lt_or_eq.1 hcaller with hearlier | rfl
        · exact (hle.map Turn.caller).subset (hcallers caller hearlier)
        · exact hturn
  exact hsome ds.length (Nat.le_refl _)

end Floor

end RouteControl.Connection
