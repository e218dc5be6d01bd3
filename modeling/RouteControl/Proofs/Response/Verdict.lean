import RouteControl.Proofs.Message.Kind
import RouteControl.Response

/-!
# Verdicts

What the messages of a response say about the change that was asked for (`Verdict`).  The first
error message counts, wherever it stands among the entries, unless the end of several messages comes
before it.  Reading an acknowledgement comes to the verdict, and there is just one
(`ackIn_eq_iff`).
-/

namespace RouteControl.Response

variable {messages : List Message} {report : Message} {result : Except Error Unit}

/-- The first error message, if it does not stand behind the end of several messages. -/
def FirstReport (messages : List Message) (report : Message) : Prop :=
  ∃ front back, messages = front ++ report :: back ∧ report.kind = .error ∧
    ∀ m ∈ front, m.kind ≠ .error ∧ m.kind ≠ .done

/-- No error message stands before the end of several messages. -/
def Unreported (messages : List Message) : Prop :=
  ∀ front report back, messages = front ++ report :: back → report.kind = .error →
    ∃ m ∈ front, m.kind = .done

def codeOf (m : Message) : Int32 := (m.payload.uint32At 0).toInt32

def errnoOf (m : Message) : Nat := (codeOf m).toInt.natAbs

/-- What the messages of a response say about a change. -/
inductive Verdict (messages : List Message) : Except Error Unit → Prop where
  | accepted {report : Message} (hfirst : FirstReport messages report)
      (hwhole : ErrorReport.size ≤ report.payload.length) (hcode : codeOf report = 0) :
      Verdict messages (.ok ())
  | present {report : Message} (hfirst : FirstReport messages report)
      (hwhole : ErrorReport.size ≤ report.payload.length) (herrno : errnoOf report = 17) :
      Verdict messages (.error .alreadyExists)
  | absent {report : Message} (hfirst : FirstReport messages report)
      (hwhole : ErrorReport.size ≤ report.payload.length)
      (herrno : errnoOf report = 2 ∨ errnoOf report = 3) :
      Verdict messages (.error (.notFound (errnoOf report)))
  | refused {report : Message} {errno : Int} (hfirst : FirstReport messages report)
      (hwhole : ErrorReport.size ≤ report.payload.length) (hcode : codeOf report ≠ 0)
      (hpresent : errnoOf report ≠ 17) (habsent : errnoOf report ≠ 2 ∧ errnoOf report ≠ 3)
      (herrno : errno = min (errnoOf report : Int) 2147483647) :
      Verdict messages
        (.error (.protocolError errno s!"{Errno.text errno} (os error {errno})"))
  | cutShort {report : Message} (hfirst : FirstReport messages report)
      (hshort : report.payload.length < ErrorReport.size) :
      Verdict messages (.error (.truncated ErrorReport.size report.payload.length))
  | silent (hnone : Unreported messages) : Verdict messages (.error .notAcknowledged)

theorem unreported_cons {m : Message} (herror : m.kind ≠ .error) {ms : List Message} :
    Unreported (m :: ms) ↔ m.kind = .done ∨ Unreported ms := by
  constructor
  · intro h
    refine Decidable.or_iff_not_imp_left.2 ?_
    intro hdone front report back hsplit hreport
    obtain ⟨d, hd, hkind⟩ := h (m :: front) report back (by rw [hsplit]; rfl) hreport
    rcases List.mem_cons.1 hd with rfl | hd
    · exact absurd hkind hdone
    · exact ⟨d, hd, hkind⟩
  · intro h front report back hsplit hreport
    cases front with
    | nil =>
        obtain ⟨rfl, -⟩ := List.cons.inj hsplit
        exact absurd hreport herror
    | cons first front =>
        obtain ⟨rfl, hrest⟩ := List.cons.inj hsplit
        rcases h with hdone | hnone
        · exact ⟨m, List.mem_cons_self, hdone⟩
        · obtain ⟨d, hd, hkind⟩ := hnone front report back hrest hreport
          exact ⟨d, List.mem_cons_of_mem _ hd, hkind⟩

theorem firstReport_or_unreported (messages : List Message) :
    (∃ report, FirstReport messages report) ∨ Unreported messages := by
  induction messages with
  | nil => exact .inr (by simp [Unreported])
  | cons m ms ih =>
      by_cases herror : m.kind = .error
      · exact .inl ⟨m, [], ms, rfl, herror, by simp⟩
      by_cases hdone : m.kind = .done
      · exact .inr ((unreported_cons herror).2 (.inl hdone))
      rcases ih with ⟨report, front, back, rfl, hreport, hfront⟩ | hnone
      · exact .inl ⟨report, m :: front, back, rfl, hreport,
          List.forall_mem_cons.2 ⟨⟨herror, hdone⟩, hfront⟩⟩
      · exact .inr ((unreported_cons herror).2 (.inr hnone))

/-! ## Reading an acknowledgement -/

private theorem ackIn_cons_of_entry {m : Message} (herror : m.kind ≠ .error)
    (hdone : m.kind ≠ .done) (fault : Option UInt32) (ms : List Message) :
    ackIn fault (m :: ms) = ackIn fault ms := by
  rw [ackIn]
  split
  · exact absurd ‹_› herror
  · exact absurd ‹_› hdone
  · rfl

theorem ackIn_of_firstReport (h : FirstReport messages report) (fault : Option UInt32) :
    ackIn fault messages = checkReport report := by
  obtain ⟨front, back, rfl, hreport, hfront⟩ := h
  induction front with
  | nil => rw [List.nil_append, ackIn, hreport]
  | cons m front ih =>
      obtain ⟨⟨herror, hdone⟩, hfront⟩ := List.forall_mem_cons.1 hfront
      rw [List.cons_append, ackIn_cons_of_entry herror hdone, ih hfront]

theorem ackIn_of_unreported (h : Unreported messages) :
    ackIn none messages = .error .notAcknowledged := by
  induction messages with
  | nil => rfl
  | cons m ms ih =>
      have herror : m.kind ≠ .error := by
        intro hkind
        obtain ⟨d, hd, -⟩ := h [] m ms rfl hkind
        cases hd
      by_cases hdone : m.kind = .done
      · rw [ackIn, hdone]
      · rw [ackIn_cons_of_entry herror hdone]
        exact ih (((unreported_cons herror).1 h).resolve_left hdone)

theorem checkReport_of_short (h : report.payload.length < ErrorReport.size) :
    checkReport report = .error (.truncated ErrorReport.size report.payload.length) := by
  rw [checkReport, ErrorReport.decode, if_pos h]
  rfl

theorem checkReport_of_whole (h : ErrorReport.size ≤ report.payload.length) :
    checkReport report =
      if codeOf report = 0 then .ok () else .error (.ofErrno (codeOf report)) := by
  rw [checkReport, ErrorReport.decode, if_neg (Nat.not_lt_of_le h)]
  change (if decide (codeOf report = 0) = true then _ else _) = _
  simp only [decide_eq_true_eq]
  rfl

private theorem magnitude_eq_iff (report : Message) {n : Nat} (hn : n < 2147483647) :
    Error.magnitude (codeOf report) = n ↔ errnoOf report = n := by
  simp only [Error.magnitude, errnoOf]
  omega

theorem ofErrno_of_present (h : errnoOf report = 17) :
    Error.ofErrno (codeOf report) = .alreadyExists := by
  have hpresent : Error.magnitude (codeOf report) = Errno.entryExists :=
    (magnitude_eq_iff report (by decide)).2 h
  rw [Error.ofErrno, if_pos hpresent]

theorem ofErrno_of_absent (h : errnoOf report = 2 ∨ errnoOf report = 3) :
    Error.ofErrno (codeOf report) = .notFound (errnoOf report) := by
  have hsmall : Error.magnitude (codeOf report) = errnoOf report :=
    (magnitude_eq_iff report (by omega)).2 rfl
  rw [Error.ofErrno, hsmall]
  rcases h with h | h <;> rw [h] <;> rfl

theorem ofErrno_of_other (hpresent : errnoOf report ≠ 17)
    (habsent : errnoOf report ≠ 2 ∧ errnoOf report ≠ 3) {errno : Int}
    (herrno : errno = min (errnoOf report : Int) 2147483647) :
    Error.ofErrno (codeOf report) =
      .protocolError errno s!"{Errno.text errno} (os error {errno})" := by
  have hmagnitude : Error.magnitude (codeOf report) = errno := herrno.symm
  have h17 : Error.magnitude (codeOf report) ≠ Errno.entryExists :=
    mt (magnitude_eq_iff report (by decide)).1 hpresent
  have h2 : Error.magnitude (codeOf report) ≠ Errno.noEntry :=
    mt (magnitude_eq_iff report (by decide)).1 habsent.1
  have h3 : Error.magnitude (codeOf report) ≠ Errno.noSuchEntry :=
    mt (magnitude_eq_iff report (by decide)).1 habsent.2
  rw [Error.ofErrno, if_neg h17, if_neg (not_or.2 ⟨h3, h2⟩), hmagnitude]

theorem exists_verdict (messages : List Message) : Verdict messages (ackIn none messages) := by
  rcases firstReport_or_unreported messages with ⟨report, hfirst⟩ | hnone
  · rw [ackIn_of_firstReport hfirst]
    by_cases hwhole : ErrorReport.size ≤ report.payload.length
    · rw [checkReport_of_whole hwhole]
      by_cases hcode : codeOf report = 0
      · rw [if_pos hcode]
        exact .accepted hfirst hwhole hcode
      rw [if_neg hcode]
      by_cases hpresent : errnoOf report = 17
      · rw [ofErrno_of_present hpresent]
        exact .present hfirst hwhole hpresent
      by_cases habsent : errnoOf report = 2 ∨ errnoOf report = 3
      · rw [ofErrno_of_absent habsent]
        exact .absent hfirst hwhole habsent
      rw [ofErrno_of_other hpresent (not_or.1 habsent) rfl]
      exact .refused hfirst hwhole hcode hpresent (not_or.1 habsent) rfl
    · have hshort := Nat.lt_of_not_le hwhole
      rw [checkReport_of_short hshort]
      exact .cutShort hfirst hshort
  · rw [ackIn_of_unreported hnone]
    exact .silent hnone

theorem codeOf_ne_zero (h : errnoOf report ≠ 0) : codeOf report ≠ 0 := by
  intro hzero
  rw [errnoOf, hzero] at h
  exact h rfl

theorem ackIn_eq_iff : ackIn none messages = result ↔ Verdict messages result := by
  constructor
  · rintro rfl
    exact exists_verdict messages
  · intro h
    cases h with
    | accepted hfirst hwhole hcode =>
        rw [ackIn_of_firstReport hfirst, checkReport_of_whole hwhole, if_pos hcode]
    | present hfirst hwhole herrno =>
        rw [ackIn_of_firstReport hfirst, checkReport_of_whole hwhole,
          if_neg (codeOf_ne_zero (by omega)), ofErrno_of_present herrno]
    | absent hfirst hwhole herrno =>
        rw [ackIn_of_firstReport hfirst, checkReport_of_whole hwhole,
          if_neg (codeOf_ne_zero (by omega)), ofErrno_of_absent herrno]
    | refused hfirst hwhole hcode hpresent habsent herrno =>
        rw [ackIn_of_firstReport hfirst, checkReport_of_whole hwhole, if_neg hcode,
          ofErrno_of_other hpresent habsent herrno]
    | cutShort hfirst hshort => rw [ackIn_of_firstReport hfirst, checkReport_of_short hshort]
    | silent hnone => exact ackIn_of_unreported hnone

end RouteControl.Response
