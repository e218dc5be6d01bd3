import Mathlib.Data.List.Induction
import Mathlib.Data.Prod.Lex
import RouteControl.Selection

/-!
# The route that is selected

Routes are ranked by a key, the least first, and a route takes the place of the best so far just
when its key is below that one's (`replaces_iff`).  So one more route either leaves the best one at
its place or takes over (`BestAt.keeps`, `BestAt.replaced`), and what is selected from all is the
first of the least among the routes that take part (`select_eq_some_iff`).
-/

namespace RouteControl.Route

open OrderDual (toDual)

variable {query : Prefix} {wanted : Option Address} {r s : Route} {routes : List Route} {i j : ℕ}

/-- What a route is ranked by: one with the source address wanted goes before one without, then the
lower priority goes first, then the longer prefix. -/
def key (wanted : Option Address) (r : Route) : Bool ×ₗ ℕ ×ₗ ℕᵒᵈ :=
  toLex (!r.isPrimary wanted, toLex (r.priority.toNat, toDual r.prefixLength.toNat))

theorem outranks_iff :
    s.outranks r ↔ toLex (s.priority.toNat, toDual s.prefixLength.toNat) <
      toLex (r.priority.toNat, toDual r.prefixLength.toNat) := by
  rw [Prod.Lex.toLex_lt_toLex, OrderDual.toDual_lt_toDual]
  simp only [outranks, decide_eq_true_eq, UInt32.lt_iff_toNat_lt, UInt8.lt_iff_toNat_lt,
    UInt32.toNat_inj]

theorem replaces_iff : s.replaces wanted r ↔ s.key wanted < r.key wanted := by
  rw [key, key, Prod.Lex.toLex_lt_toLex, ← outranks_iff, replaces]
  cases s.isPrimary wanted <;> cases r.isPrimary wanted <;> simp

/-! ## One more route -/

theorem better_of_ineligible (h : ¬s.isEligible query) (best : Option Route) :
    better query wanted best s = best := by
  simp [better, h]

theorem better_none (h : s.isEligible query) : better query wanted none s = some s := by
  simp [better, h]

theorem better_some (h : s.isEligible query) :
    better query wanted (some r) s = if s.key wanted < r.key wanted then some s else some r := by
  simp [better, h, replaces_iff]

theorem select_concat (routes : List Route) (s : Route) :
    select query wanted (routes ++ [s]) = better query wanted (select query wanted routes) s := by
  rw [select, List.foldl_append]
  rfl

/-- The route at this place takes part, no route that takes part ranks before it, and none that
ranks with it comes before it. -/
structure BestAt (query : Prefix) (wanted : Option Address) (routes : List Route) (i : ℕ)
    (r : Route) : Prop where
  place : routes[i]? = some r
  eligible : r.isEligible query
  least : ∀ (j : ℕ) (s : Route), routes[j]? = some s → s.isEligible query →
    r.key wanted ≤ s.key wanted
  first : ∀ (j : ℕ) (s : Route), routes[j]? = some s → s.isEligible query →
    s.key wanted = r.key wanted → i ≤ j

private theorem getElem?_concat_eq_some_iff :
    (routes ++ [s])[j]? = some r ↔ routes[j]? = some r ∨ j = routes.length ∧ r = s := by
  grind

theorem bestAt_of_none (h : ∀ r ∈ routes, ¬r.isEligible query) (hs : s.isEligible query) :
    BestAt query wanted (routes ++ [s]) routes.length s where
  place := List.getElem?_concat_length
  eligible := hs
  least := by
    intro j x hx helig
    rcases getElem?_concat_eq_some_iff.1 hx with hold | ⟨-, rfl⟩
    · exact absurd helig (h x (List.mem_of_getElem? hold))
    · exact le_rfl
  first := by
    intro j x hx helig _
    rcases getElem?_concat_eq_some_iff.1 hx with hold | ⟨rfl, -⟩
    · exact absurd helig (h x (List.mem_of_getElem? hold))
    · exact le_rfl

theorem BestAt.keeps (h : BestAt query wanted routes i r)
    (hs : s.isEligible query → ¬s.key wanted < r.key wanted) :
    BestAt query wanted (routes ++ [s]) i r where
  place := getElem?_concat_eq_some_iff.2 (.inl h.place)
  eligible := h.eligible
  least := by
    intro j x hx helig
    rcases getElem?_concat_eq_some_iff.1 hx with hold | ⟨-, rfl⟩
    · exact h.least j x hold helig
    · exact not_lt.1 (hs helig)
  first := by
    intro j x hx helig hkey
    rcases getElem?_concat_eq_some_iff.1 hx with hold | ⟨rfl, -⟩
    · exact h.first j x hold helig hkey
    · exact (List.getElem?_eq_some_iff.1 h.place).1.le

theorem BestAt.replaced (h : BestAt query wanted routes i r) (hs : s.isEligible query)
    (hkey : s.key wanted < r.key wanted) :
    BestAt query wanted (routes ++ [s]) routes.length s where
  place := List.getElem?_concat_length
  eligible := hs
  least := by
    intro j x hx helig
    rcases getElem?_concat_eq_some_iff.1 hx with hold | ⟨-, rfl⟩
    · exact hkey.le.trans (h.least j x hold helig)
    · exact le_rfl
  first := by
    intro j x hx helig heq
    rcases getElem?_concat_eq_some_iff.1 hx with hold | ⟨rfl, -⟩
    · exact absurd (heq ▸ hkey) (h.least j x hold helig).not_gt
    · exact le_rfl

theorem BestAt.unique (hr : BestAt query wanted routes i r) (hs : BestAt query wanted routes j s) :
    r = s := by
  have hkey : s.key wanted = r.key wanted :=
    le_antisymm (hs.least i r hr.place hr.eligible) (hr.least j s hs.place hs.eligible)
  have hplace : i = j :=
    le_antisymm (hr.first j s hs.place hs.eligible hkey)
      (hs.first i r hr.place hr.eligible hkey.symm)
  subst hplace
  exact Option.some_inj.1 (hr.place.symm.trans hs.place)

/-! ## All routes -/

/-- What is selected from some routes: none where none takes part, else the best one. -/
theorem select_cases (query : Prefix) (wanted : Option Address) (routes : List Route) :
    (select query wanted routes = none ∧ ∀ r ∈ routes, ¬r.isEligible query) ∨
      ∃ i r, select query wanted routes = some r ∧ BestAt query wanted routes i r := by
  induction routes using List.reverseRecOn with
  | nil => exact .inl ⟨rfl, by simp⟩
  | append_singleton routes s ih =>
      rw [select_concat]
      by_cases hs : s.isEligible query
      · rcases ih with ⟨hnone, hrest⟩ | ⟨i, r, hsome, hbest⟩
        · rw [hnone, better_none hs]
          exact .inr ⟨_, s, rfl, bestAt_of_none hrest hs⟩
        · rw [hsome, better_some hs]
          by_cases hkey : s.key wanted < r.key wanted
          · exact .inr ⟨_, s, if_pos hkey, hbest.replaced hs hkey⟩
          · exact .inr ⟨i, r, if_neg hkey, hbest.keeps fun _ => hkey⟩
      · rw [better_of_ineligible hs]
        rcases ih with ⟨hnone, hrest⟩ | ⟨i, r, hsome, hbest⟩
        · exact .inl ⟨hnone, List.forall_mem_append.2 ⟨hrest, by simpa using hs⟩⟩
        · exact .inr ⟨i, r, hsome, hbest.keeps fun h => absurd h hs⟩

theorem select_eq_none_iff :
    select query wanted routes = none ↔ ∀ r ∈ routes, ¬r.isEligible query := by
  rcases select_cases query wanted routes with ⟨hnone, hrest⟩ | ⟨i, r, hsome, hbest⟩
  · exact ⟨fun _ => hrest, fun _ => hnone⟩
  · rw [hsome]
    exact ⟨nofun, fun h => absurd hbest.eligible (h r (List.mem_of_getElem? hbest.place))⟩

theorem select_eq_some_iff :
    select query wanted routes = some r ↔ ∃ i, BestAt query wanted routes i r := by
  rcases select_cases query wanted routes with ⟨hnone, hrest⟩ | ⟨i, best, hsome, hbest⟩
  · rw [hnone]
    refine ⟨nofun, fun ⟨j, hr⟩ => ?_⟩
    exact absurd hr.eligible (hrest r (List.mem_of_getElem? hr.place))
  · rw [hsome]
    constructor
    · rintro ⟨⟩
      exact ⟨i, hbest⟩
    · rintro ⟨j, hr⟩
      exact congrArg some (hbest.unique hr)

/-! ## Parts and orders -/

theorem select_filter (routes : List Route) :
    select query wanted (routes.filter (isEligible query)) = select query wanted routes := by
  rw [select, List.foldl_filter]
  congr 1
  funext best s
  split
  · rfl
  · rename_i hs
    exact (better_of_ineligible hs best).symm

/-- Taking over is transitive, so it does not matter what a route is compared with first. -/
theorem better_better (hr : r.isEligible query) (hs : s.isEligible query) (best : Option Route) :
    better query wanted (better query wanted best r) s =
      (better query wanted (some r) s).toList.foldl (better query wanted) best := by
  cases best with
  | none =>
      rw [better_none hr, better_some hs]
      split
      · simp [better_none hs]
      · simp [better_none hr]
  | some b =>
      rw [better_some hr, better_some hs]
      by_cases hrb : r.key wanted < b.key wanted
      · rw [if_pos hrb, better_some hs]
        split
        · rename_i hsr
          simp [better_some hs, hsr.trans hrb]
        · simp [better_some hr, hrb]
      · rw [if_neg hrb, better_some hs]
        by_cases hsr : s.key wanted < r.key wanted
        · simp [hsr, better_some hs]
        · have hsb : ¬s.key wanted < b.key wanted := fun h => hrb ((not_lt.1 hsr).trans_lt h)
          simp [hsr, hsb, better_some hr, hrb]

/-- Going on from the best so far over more routes comes to comparing it with the best of these. -/
theorem foldl_better (best : Option Route) (routes : List Route) :
    routes.foldl (better query wanted) best =
      (select query wanted routes).toList.foldl (better query wanted) best := by
  induction routes using List.reverseRecOn with
  | nil => rfl
  | append_singleton routes s ih =>
      rw [List.foldl_append, ih, select_concat, List.foldl_cons, List.foldl_nil]
      by_cases hs : s.isEligible query
      · rcases select_cases query wanted routes with ⟨hnone, -⟩ | ⟨i, r, hsome, hbest⟩
        · rw [hnone, better_none hs]
          rfl
        · rw [hsome]
          exact better_better hbest.eligible hs best
      · rw [better_of_ineligible hs, better_of_ineligible hs]

theorem select_append (first second : List Route) :
    select query wanted (first ++ second) = select query wanted
      ((select query wanted first).toList ++ (select query wanted second).toList) := by
  have hfirst : first.foldl (better query wanted) none =
      (select query wanted first).toList.foldl (better query wanted) none := foldl_better none first
  rw [select, List.foldl_append, foldl_better, hfirst, ← List.foldl_append]
  rfl

theorem key_le_of_select (hr : select query wanted routes = some r) (hs : s ∈ routes)
    (helig : s.isEligible query) : r.key wanted ≤ s.key wanted := by
  obtain ⟨i, hbest⟩ := select_eq_some_iff.1 hr
  obtain ⟨j, hj⟩ := List.getElem?_of_mem hs
  exact hbest.least j s hj helig

theorem map_key_select_of_perm {routes' : List Route} (h : routes.Perm routes') :
    (select query wanted routes).map (key wanted) =
      (select query wanted routes').map (key wanted) := by
  rcases select_cases query wanted routes with ⟨hnone, hrest⟩ | ⟨i, r, hr, hbest⟩
  · have hnone' : select query wanted routes' = none :=
      select_eq_none_iff.2 fun s hs => hrest s (h.mem_iff.2 hs)
    rw [hnone, hnone']
  · have hmem : r ∈ routes' := h.mem_iff.1 (List.mem_of_getElem? hbest.place)
    rcases select_cases query wanted routes' with ⟨-, hrest⟩ | ⟨j, s, hs, hbest'⟩
    · exact absurd hbest.eligible (hrest r hmem)
    · have hmem' : s ∈ routes := h.mem_iff.2 (List.mem_of_getElem? hbest'.place)
      rw [hr, hs]
      exact congrArg some (le_antisymm (key_le_of_select hr hmem' hbest'.eligible)
        (key_le_of_select hs hmem hbest.eligible))

/-- Nothing is selected just where no route takes part; else it is the route at the one place where
no other that takes part is better and those that are as good come later.  Routes that take no part
do not matter, the selection from two lists is the one among what is selected from each, and in
another order of the routes it is one with the same key. -/
theorem select_first_of_best (query : Prefix) (wanted : Option Address) :
    (∀ routes, select query wanted routes = none ↔ ∀ r ∈ routes, ¬r.isEligible query) ∧
    (∀ routes r, select query wanted routes = some r ↔ ∃ i, BestAt query wanted routes i r) ∧
    (∀ routes, select query wanted (routes.filter (isEligible query)) =
      select query wanted routes) ∧
    (∀ first second, select query wanted (first ++ second) = select query wanted
      ((select query wanted first).toList ++ (select query wanted second).toList)) ∧
    ∀ routes routes' : List Route, routes.Perm routes' →
      (select query wanted routes).map (key wanted) =
        (select query wanted routes').map (key wanted) :=
  ⟨fun _ => select_eq_none_iff, fun _ _ => select_eq_some_iff, select_filter, select_append,
    fun _ _ => map_key_select_of_perm⟩

def through (gateway : Address) : Route where
  family := .inet
  destination := .v4 0x0a000000
  prefixLength := 8
  gateway := some gateway
  preferredSource := none
  outputInterface := none
  table := 254
  priority := 100
  type := 1
  protocol := 0
  scope := 0

/-- Of two routes with the same key the first is selected, in either order. -/
theorem select_first_of_best_tied :
    let first := through (.v4 0x0a000001)
    let second := through (.v4 0x0a000002)
    let query : Prefix := ⟨.v4 0x0a010203, 32⟩
    [first, second].Perm [second, first] ∧
      select query none [first, second] = some first ∧
      select query none [second, first] = some second ∧
      (select query none [first, second]).map (key none) =
        (select query none [second, first]).map (key none) := by
  intro first second query
  have hperm : [first, second].Perm [second, first] := .swap _ _ _
  exact ⟨hperm, by decide, by decide, (select_first_of_best query none).2.2.2.2 _ _ hperm⟩

end RouteControl.Route
