import RouteControl.Attribute

/-!
# Values of attributes

Of the attributes of one kind the last one whose payload decodes tells the value (`lastValue?`).
Attributes that hold no value of the kind may be put in anywhere, and neighbours of different kinds
may change places: the value stays the same (`lastValue?_rearranged`).
-/

namespace RouteControl.Attribute

variable {α : Type} {kind : UInt16} {decode? : Bytes → Option α} {a b : Attribute}
  {first second : List Attribute}

/-- The value of one kind that an attribute holds: it is of this kind, whatever its flags, and its
payload decodes. -/
def value? (kind : UInt16) (decode? : Bytes → Option α) (a : Attribute) : Option α :=
  if a.kind = kind then decode? a.payload else none

def lastValue? (kind : UInt16) (decode? : Bytes → Option α) (attributes : List Attribute) :
    Option α :=
  attributes.reverse.findSome? (value? kind decode?)

theorem lastValue?_append (first second : List Attribute) :
    lastValue? kind decode? (first ++ second) =
      (lastValue? kind decode? second).or (lastValue? kind decode? first) := by
  rw [lastValue?, List.reverse_append, List.findSome?_append]
  rfl

theorem lastValue?_cons (a : Attribute) (attributes : List Attribute) :
    lastValue? kind decode? (a :: attributes) =
      (lastValue? kind decode? attributes).or (value? kind decode? a) := by
  rw [lastValue?, List.reverse_cons, List.findSome?_append, List.findSome?_singleton]
  rfl

theorem exists_of_lastValue?_eq_some {attributes : List Attribute} {value : α}
    (h : lastValue? kind decode? attributes = some value) :
    ∃ a ∈ attributes, a.kind = kind ∧ decode? a.payload = some value := by
  obtain ⟨a, ha, hvalue⟩ := List.exists_of_findSome?_eq_some h
  obtain ⟨hkind, hdecode⟩ := Option.ite_none_right_eq_some.1 hvalue
  exact ⟨a, List.mem_reverse.1 ha, hkind, hdecode⟩

/-- Two attributes of different kinds do not both hold a value of one kind. -/
theorem value?_eq_none_or (h : a.kind ≠ b.kind) :
    value? kind decode? a = none ∨ value? kind decode? b = none := by
  by_cases ha : a.kind = kind
  · exact .inr (if_neg fun hb => h (ha.trans hb.symm))
  · exact .inl (if_neg ha)

/-- The first attributes with ignored ones put in, and neighbours of different kinds swapped, any
number of times. -/
inductive Rearranged (Ignored : Attribute → Prop) : List Attribute → List Attribute → Prop where
  | inserted {a : Attribute} (front back : List Attribute) (h : Ignored a) :
      Rearranged Ignored (front ++ back) (front ++ a :: back)
  | swapped {a b : Attribute} (front back : List Attribute) (h : a.kind ≠ b.kind) :
      Rearranged Ignored (front ++ a :: b :: back) (front ++ b :: a :: back)
  | trans {first second third : List Attribute} (h : Rearranged Ignored first second)
      (hnext : Rearranged Ignored second third) : Rearranged Ignored first third

theorem lastValue?_rearranged {Ignored : Attribute → Prop}
    (hignored : ∀ a, Ignored a → a.kind = kind → decode? a.payload = none)
    (h : Rearranged Ignored first second) :
    lastValue? kind decode? second = lastValue? kind decode? first := by
  induction h with
  | @inserted a front back ha =>
      have hnone : value? kind decode? a = none := ite_eq_right_iff.2 (hignored a ha)
      rw [lastValue?_append, lastValue?_append, lastValue?_cons, hnone, Option.or_none]
  | swapped front back hkinds =>
      simp only [lastValue?_append, lastValue?_cons, Option.or_assoc]
      rcases value?_eq_none_or hkinds with hnone | hnone
      · rw [hnone, Option.none_or, Option.none_or]
      · rw [hnone, Option.none_or, Option.none_or]
  | trans _ _ ih ihnext => exact ihnext.trans ih

end RouteControl.Attribute
