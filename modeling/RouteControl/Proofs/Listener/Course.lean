import RouteControl.Proofs.Listener.Deliveries

/-!
# The course of a listener

A listener that is not stopped takes its replies one by one up to the first notification after which
its handler wants no more (`listen_of_closes`), and all of them if there is none (`listen_of_open`).
Either is the case (`open_or_closes`).
-/

namespace RouteControl.Listener

variable {σ : Type} {run : Run σ} {now : Duration} {state : σ} {reply : Script.Reply}
  {replies rest taken : List Script.Reply} {moment : Duration × σ}

/-- The time and the state after some replies, whether or not the handler wanted more. -/
def follow (run : Run σ) (moment : Duration × σ) (replies : List Script.Reply) : Duration × σ :=
  replies.foldl (handle run) moment

/-- The last of the replies is a notification, and the handler wants no more after it. -/
def Closes (run : Run σ) (moment : Duration × σ) (replies : List Script.Reply) : Prop :=
  ∃ earlier reply, replies = earlier ++ [reply] ∧ reply.isNotification ∧
    run.handler.isClosed (follow run moment replies).2

/-- The handler wants no more after the last of the replies, and never before. -/
structure ClosesFirst (run : Run σ) (moment : Duration × σ) (replies : List Script.Reply) :
    Prop where
  closes : Closes run moment replies
  first : ∀ shorter, shorter <+: replies → Closes run moment shorter → shorter = replies

/-- The handler wants more after each of the replies. -/
def StaysOpen (run : Run σ) (moment : Duration × σ) (replies : List Script.Reply) : Prop :=
  ∀ front, front <+: replies → ¬Closes run moment front

private theorem not_closes_nil : ¬Closes run moment [] := by
  rintro ⟨earlier, reply, hnil, -⟩
  simp at hnil

private theorem closes_singleton : Closes run moment [reply] ↔
    reply.isNotification ∧ run.handler.isClosed (handle run moment reply).2 := by
  constructor
  · rintro ⟨earlier, last, hsplit, hlast, hclosed⟩
    have hsingle := (List.append_inj' (show [] ++ [reply] = earlier ++ [last] from hsplit) rfl).2
    obtain rfl := List.singleton_inj.1 hsingle
    exact ⟨hlast, hclosed⟩
  · rintro ⟨hnotification, hclosed⟩
    exact ⟨[], reply, rfl, hnotification, hclosed⟩

theorem closes_cons (h : rest ≠ []) :
    Closes run moment (reply :: rest) ↔ Closes run (handle run moment reply) rest := by
  constructor
  · rintro ⟨earlier, last, hsplit, hlast, hclosed⟩
    cases earlier with
    | nil => exact absurd (List.cons.inj hsplit).2 h
    | cons first earlier =>
        obtain ⟨rfl, hrest⟩ := List.cons.inj hsplit
        exact ⟨earlier, last, hrest, hlast, hclosed⟩
  · rintro ⟨earlier, last, rfl, hlast, hclosed⟩
    exact ⟨reply :: earlier, last, rfl, hlast, hclosed⟩

theorem listen_cons (hstop : run.stop = none) :
    listen run now state (reply :: rest) =
      if reply.isNotification ∧ run.handler.isClosed (handle run (now, state) reply).2 then
        ⟨(handle run (now, state) reply).2, rest, true, (handle run (now, state) reply).1⟩
      else
        listen run (handle run (now, state) reply).1 (handle run (now, state) reply).2 rest := by
  rw [listen]
  rcases reply_cases reply with hnotification | hcostly | ⟨hignored, hcostly⟩
  · obtain ⟨datagram, hreception, -⟩ := ofReply_of_isNotification hnotification
    simp [handle, hreception, hnotification]
  · simp [handle, ofReply_of_isCostly hcostly, not_isNotification_of_isCostly hcostly, Run.goesOn,
      hstop]
  · simp [handle, ofReply_of_other hignored hcostly, hignored]

private theorem not_closing_of_not_closes (h : ¬Closes run moment [reply]) :
    ¬(reply.isNotification ∧ run.handler.isClosed (handle run moment reply).2) :=
  mt closes_singleton.2 h

theorem StaysOpen.tail (h : StaysOpen run moment (reply :: rest)) :
    StaysOpen run (handle run moment reply) rest := by
  intro front hfront hcloses
  have hne : front ≠ [] := by
    rintro rfl
    exact not_closes_nil hcloses
  exact h (reply :: front) (List.cons_prefix_cons.2 ⟨rfl, hfront⟩) ((closes_cons hne).2 hcloses)

theorem ClosesFirst.tail (hne : rest ≠ []) (h : ClosesFirst run moment (reply :: rest)) :
    ClosesFirst run (handle run moment reply) rest where
  closes := (closes_cons hne).1 h.closes
  first := by
    intro shorter hshorter hcloses
    have hne' : shorter ≠ [] := by
      rintro rfl
      exact not_closes_nil hcloses
    have hsame := h.first (reply :: shorter) (List.cons_prefix_cons.2 ⟨rfl, hshorter⟩)
      ((closes_cons hne').2 hcloses)
    exact (List.cons.inj hsame).2

theorem listen_of_open (hstop : run.stop = none) (h : StaysOpen run (now, state) replies) :
    listen run now state replies =
      ⟨run.idle (follow run (now, state) replies).1 (follow run (now, state) replies).2, [], false,
        (follow run (now, state) replies).1⟩ := by
  induction replies generalizing now state with
  | nil => rfl
  | cons reply rest ih =>
      have hopen := not_closing_of_not_closes (h [reply] ⟨rest, rfl⟩)
      rw [listen_cons hstop, if_neg hopen]
      exact ih h.tail

theorem listen_of_closes (hstop : run.stop = none) (h : ClosesFirst run (now, state) taken)
    (rest : List Script.Reply) :
    listen run now state (taken ++ rest) =
      ⟨(follow run (now, state) taken).2, rest, true, (follow run (now, state) taken).1⟩ := by
  induction taken generalizing now state with
  | nil => exact absurd h.closes not_closes_nil
  | cons reply more ih =>
      rw [List.cons_append, listen_cons hstop]
      by_cases hmore : more = []
      · subst hmore
        rw [if_pos (closes_singleton.1 h.closes)]
        rfl
      · have hopen : ¬Closes run (now, state) [reply] := fun hcloses =>
          hmore (List.cons.inj (h.first [reply] ⟨more, rfl⟩ hcloses)).2.symm
        rw [if_neg (not_closing_of_not_closes hopen)]
        exact ih (h.tail hmore)

theorem open_or_closes (run : Run σ) (moment : Duration × σ) (replies : List Script.Reply) :
    StaysOpen run moment replies ∨
      ∃ taken rest, replies = taken ++ rest ∧ ClosesFirst run moment taken := by
  induction replies generalizing moment with
  | nil =>
      refine .inl fun front hfront => ?_
      rw [List.prefix_nil.1 hfront]
      exact not_closes_nil
  | cons reply rest ih =>
      by_cases hcloses : Closes run moment [reply]
      · refine .inr ⟨[reply], rest, rfl, hcloses, fun shorter hshorter hshort => ?_⟩
        rcases shorter with _ | ⟨first, shorter⟩
        · exact absurd hshort not_closes_nil
        · obtain ⟨rfl, hnil⟩ := List.cons_prefix_cons.1 hshorter
          rw [List.prefix_nil.1 hnil]
      rcases ih (handle run moment reply) with hopen | ⟨taken, left, rfl, hfirst⟩
      · refine .inl fun front hfront hfront' => ?_
        rcases front with _ | ⟨first, front⟩
        · exact not_closes_nil hfront'
        obtain ⟨rfl, hprefix⟩ := List.cons_prefix_cons.1 hfront
        by_cases hne : front = []
        · subst hne
          exact hcloses hfront'
        · exact hopen front hprefix ((closes_cons hne).1 hfront')
      · have hne : taken ≠ [] := by
          rintro rfl
          exact not_closes_nil hfirst.closes
        refine .inr ⟨reply :: taken, left, rfl, (closes_cons hne).2 hfirst.closes, ?_⟩
        intro shorter hshorter hshort
        rcases shorter with _ | ⟨first, shorter⟩
        · exact absurd hshort not_closes_nil
        obtain ⟨rfl, hprefix⟩ := List.cons_prefix_cons.1 hshorter
        by_cases hne' : shorter = []
        · subst hne'
          exact absurd hshort hcloses
        · rw [hfirst.first shorter hprefix ((closes_cons hne').1 hshort)]

/-! ## The course with a log -/

variable {log : List (Duration × Event)}

theorem follow_logged (run : Run σ) (now : Duration) (state : σ) (log : List (Duration × Event))
    (replies : List Script.Reply) :
    (follow run.logged (now, state, log) replies).1 = (follow run (now, state) replies).1 ∧
      (follow run.logged (now, state, log) replies).2.1 = (follow run (now, state) replies).2 := by
  induction replies generalizing now state log with
  | nil => exact ⟨rfl, rfl⟩
  | cons reply rest ih =>
      have hcons : follow run.logged (now, state, log) (reply :: rest) = _ :=
        congrArg (follow run.logged · rest) handle_logged
      rw [hcons]
      exact ih _ _ _

theorem closes_logged :
    Closes run.logged (now, state, log) taken ↔ Closes run (now, state) taken := by
  have hclosed : run.logged.handler.isClosed (follow run.logged (now, state, log) taken).2 =
      run.handler.isClosed (follow run (now, state) taken).2 :=
    congrArg run.handler.isClosed (follow_logged run now state log taken).2
  simp only [Closes, hclosed]

theorem closesFirst_logged :
    ClosesFirst run.logged (now, state, log) taken ↔ ClosesFirst run (now, state) taken := by
  constructor
  · rintro ⟨hcloses, hfirst⟩
    exact ⟨closes_logged.1 hcloses, fun front hfront h => hfirst front hfront (closes_logged.2 h)⟩
  · rintro ⟨hcloses, hfirst⟩
    exact ⟨closes_logged.2 hcloses, fun front hfront h => hfirst front hfront (closes_logged.1 h)⟩

theorem staysOpen_logged :
    StaysOpen run.logged (now, state, log) replies ↔ StaysOpen run (now, state) replies := by
  simp only [StaysOpen, closes_logged]

end RouteControl.Listener
