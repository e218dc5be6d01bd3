import RouteControl.Message

/-!
# Kinds and types

A kind is as good as the type it stands for (`type_ofType`), so that asking for a kind that has a
name is asking for its type.
-/

namespace RouteControl

namespace MessageKind

theorem type_ofType (t : MessageType) : (ofType t).type = t := by
  simp only [ofType, named, List.lookup_cons, List.lookup_nil]
  repeat' split
  all_goals simp_all [type]

theorem ofType_eq_done_iff {t : MessageType} : ofType t = .done ↔ t = .done := by
  constructor
  · intro h
    rw [← type_ofType t, h]
    rfl
  · rintro rfl
    rfl

end MessageKind

namespace Message

theorem kind_eq_done_iff {m : Message} : m.kind = .done ↔ m.header.type = .done :=
  MessageKind.ofType_eq_done_iff

theorem isFinal_of_kind_eq_done {m : Message} (h : m.kind = .done) : m.header.isFinal := by
  simp [MessageHeader.isFinal, MessageHeader.isDone, kind_eq_done_iff.1 h]

end Message

end RouteControl
