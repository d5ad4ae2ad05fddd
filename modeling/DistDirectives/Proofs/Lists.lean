import Mathlib.Data.List.Forall2
import Mathlib.Data.List.TakeWhile

/-!
# Lists

What is needed of lists beyond the library: lists that are related element by element,
actions that are carried out on one element after the other and end with the first failure,
and where an element of a list stands.
-/

namespace DistDirectives

/-! ## Related lists -/

theorem exists_of_mem_forall₂ {α β : Type} {related : α → β → Prop} {items : List α}
    {results : List β}
    (all : List.Forall₂ related items results) {result : β} (mem : result ∈ results) :
    ∃ item ∈ items, related item result := by
  induction all with
  | nil => contradiction
  | cons first _ ih =>
      rcases List.mem_cons.1 mem with rfl | later
      · exact ⟨_, by simp, first⟩
      · obtain ⟨item, itemMem, isRelated⟩ := ih later
        exact ⟨item, by simp [itemMem], isRelated⟩

theorem forall₂_imp_of_mem {α β : Type} {related implied : α → β → Prop} {items : List α}
    {results : List β} (all : List.Forall₂ related items results)
    (step : ∀ item ∈ items, ∀ result, related item result → implied item result) :
    List.Forall₂ implied items results := by
  induction all with
  | nil => exact .nil
  | cons first _ ih =>
      exact .cons (step _ (by simp) _ first) (ih fun item mem => step item (by simp [mem]))

theorem exists_forall₂_iff {α β : Type} {related : α → β → Prop} {items : List α} :
    (∃ results, List.Forall₂ related items results) ↔
      ∀ item ∈ items, ∃ result, related item result := by
  induction items with
  | nil => simp
  | cons item items ih =>
      simp only [List.mem_cons, forall_eq_or_imp, ← ih, List.forall₂_cons_left_iff]
      constructor
      · rintro ⟨_, result, results, first, others, rfl⟩
        exact ⟨⟨result, first⟩, results, others⟩
      · rintro ⟨⟨result, first⟩, results, others⟩
        exact ⟨_, result, results, first, others, rfl⟩

theorem pairwise_of_forall₂ {α β : Type} {related : α → β → Prop} {apart : α → α → Prop}
    {separate : β → β → Prop} {items : List α} {results : List β}
    (all : List.Forall₂ related items results) (pairwise : items.Pairwise apart)
    (step : ∀ item other result otherResult, apart item other → related item result →
      related other otherResult → separate result otherResult) : results.Pairwise separate := by
  induction all with
  | nil => exact .nil
  | cons first others ih =>
      obtain ⟨firstApart, othersApart⟩ := List.pairwise_cons.1 pairwise
      refine List.pairwise_cons.2 ⟨fun otherResult mem => ?_, ih othersApart⟩
      obtain ⟨other, otherMem, isRelated⟩ := exists_of_mem_forall₂ others mem
      exact step _ other _ otherResult (firstApart other otherMem) first isRelated

/-! ## Actions on one element after the other -/

section

variable {α β ε : Type} {f : α → Except ε β} {item : α} {items : List α} {error : ε}

theorem bind_eq_ok_iff {attempt : Except ε α} {next : α → Except ε β} {result : β} :
    (attempt >>= next) = .ok result ↔ ∃ value, attempt = .ok value ∧ next value = .ok result := by
  cases attempt with
  | error error => simp [bind, Except.bind]
  | ok value => simp [bind, Except.bind]

theorem mapM_eq_ok_iff {results : List β} :
    items.mapM f = .ok results ↔
      List.Forall₂ (fun item result => f item = .ok result) items results := by
  induction items generalizing results with
  | nil =>
      rw [List.mapM_nil, List.forall₂_nil_left_iff]
      constructor
      · rintro ⟨⟩
        rfl
      · rintro rfl
        rfl
  | cons item items ih =>
      rw [List.mapM_cons, List.forall₂_cons_left_iff]
      constructor
      · intro read
        cases first : f item with
        | error error => simp [first, bind, Except.bind] at read
        | ok result =>
            cases others : items.mapM f with
            | error error => simp [first, others, bind, Except.bind] at read
            | ok more =>
                simp only [first, others] at read
                cases read
                exact ⟨result, more, rfl, ih.1 others, rfl⟩
      · rintro ⟨result, more, first, others, rfl⟩
        rw [first, ih.2 others]
        rfl

/-- What several things bring that are brought one after the other. -/
theorem mapM_flatten_eq_ok_iff {bring : α → Except ε (List β)} {results : List β} :
    (do
      let found ← items.mapM bring
      return found.flatten) = Except.ok results ↔
      ∃ pieces, List.Forall₂ (fun item piece => bring item = .ok piece) items pieces ∧
        results = pieces.flatten := by
  simp only [← mapM_eq_ok_iff]
  cases items.mapM bring with
  | error failure => simp [bind, Except.bind]
  | ok pieces => simp [bind, Except.bind, pure, Except.pure, eq_comm]

/-- An action fails on an item, and on none of those before. -/
def FirstFails (f : α → Except ε β) (items : List α) (error : ε) : Prop :=
  ∃ front item back, items = front ++ item :: back ∧
    (∀ other ∈ front, ∃ result, f other = .ok result) ∧
    f item = .error error

theorem firstFails_cons_iff :
    FirstFails f (item :: items) error ↔
      f item = .error error ∨ (∃ result, f item = .ok result) ∧ FirstFails f items error := by
  constructor
  · rintro ⟨front, failing, back, split, earlier, fails⟩
    cases front with
    | nil =>
        cases split
        exact .inl fails
    | cons first front =>
        cases split
        refine .inr ⟨earlier item (by simp), front, failing, back, rfl, fun other mem => ?_, fails⟩
        exact earlier other (by simp [mem])
  · rintro (fails | ⟨passes, front, failing, back, rfl, earlier, fails⟩)
    · exact ⟨[], item, items, rfl, by simp, fails⟩
    · refine ⟨item :: front, failing, back, rfl, fun other mem => ?_, fails⟩
      rcases List.mem_cons.1 mem with rfl | later
      · exact passes
      · exact earlier other later

theorem mapM_eq_error_iff : items.mapM f = .error error ↔ FirstFails f items error := by
  induction items with
  | nil => simp [FirstFails, pure, Except.pure]
  | cons item items ih =>
      rw [List.mapM_cons, firstFails_cons_iff, ← ih]
      cases f item with
      | error other => simp [bind, Except.bind]
      | ok result => cases items.mapM f <;> simp [bind, Except.bind, pure, Except.pure]

/-- An action on items one after the other fails as it fails on one of them. -/
theorem exists_of_mapM_eq_error (failed : items.mapM f = .error error) :
    ∃ item ∈ items, f item = .error error := by
  obtain ⟨front, item, back, rfl, -, fails⟩ := mapM_eq_error_iff.1 failed
  exact ⟨item, by simp, fails⟩

end

/-! ## Where an element stands -/

/-- The first element with a property, when one of them is known: what precedes the known
one is to be searched. -/
theorem find?_eq_getD_takeWhile {α : Type} [DecidableEq α] {items : List α} {known : α}
    {holds : α → Bool} (mem : known ∈ items) (held : holds known = true) :
    items.find? holds = some (((items.takeWhile (· ≠ known)).find? holds).getD known) := by
  induction items with
  | nil => contradiction
  | cons item items ih =>
      by_cases here : item = known
      · subst here
        rw [List.find?_cons_of_pos held, List.takeWhile_cons_of_neg (by simp)]
        rfl
      · rw [List.takeWhile_cons_of_pos (by simpa using here)]
        cases first : holds item with
        | true => rw [List.find?_cons_of_pos first, List.find?_cons_of_pos first, Option.getD_some]
        | false =>
            rw [List.find?_cons_of_neg (by simp [first]), List.find?_cons_of_neg (by simp [first])]
            exact ih ((List.mem_cons.1 mem).resolve_left (Ne.symm here))

theorem getD_find?_takeWhile_eq_iff {α : Type} [DecidableEq α] {items : List α} {known : α}
    {holds : α → Bool} :
    ((items.takeWhile (· ≠ known)).find? holds).getD known = known ↔
      ∀ item ∈ items.takeWhile (· ≠ known), holds item = false := by
  cases found : (items.takeWhile (· ≠ known)).find? holds with
  | none => simpa using found
  | some item =>
      have mem := List.mem_of_find?_eq_some found
      have differs : item ≠ known := by simpa using List.mem_takeWhile_imp mem
      have held := List.find?_some found
      refine iff_of_false differs fun none_holds => ?_
      rw [none_holds item mem] at held
      contradiction

/-- An element that does not stand in a list stands behind it. -/
theorem exists_behind_of_append_eq {α : Type} {items tail front back : List α} {item : α}
    (split : items ++ tail = front ++ item :: back) (absent : item ∉ items) :
    ∃ between, front = items ++ between ∧ tail = between ++ item :: back := by
  rcases List.append_eq_append_iff.1 split with ⟨between, rfl, tail_eq⟩ | ⟨between, rfl, back_eq⟩
  · exact ⟨between, rfl, tail_eq⟩
  · cases between with
    | nil => exact ⟨[], by simp, back_eq.symm⟩
    | cons other between =>
        obtain ⟨rfl, -⟩ := List.cons.inj back_eq
        exact absurd (by simp) absent

/-- An element that does not stand behind a list stands in it. -/
theorem exists_inside_of_append_eq {α : Type} {items tail front back : List α} {item : α}
    (split : items ++ tail = front ++ item :: back) (absent : item ∉ tail) :
    ∃ between, items = front ++ item :: between := by
  rcases List.append_eq_append_iff.1 split with ⟨between, rfl, tail_eq⟩ | ⟨between, rfl, back_eq⟩
  · exact absurd (by simp [tail_eq]) absent
  · cases between with
    | nil =>
        rw [List.nil_append] at back_eq
        exact absurd (by simp [← back_eq]) absent
    | cons other between =>
        obtain ⟨rfl, -⟩ := List.cons.inj back_eq
        exact ⟨between, rfl⟩

theorem mem_flatten_flatten {α : Type} {lists : List (List (List α))} {list : List (List α)}
    {item : α} (listMem : list ∈ lists) (mem : item ∈ list.flatten) :
    item ∈ lists.flatten.flatten := by
  rw [List.flatten_flatten]
  exact List.mem_flatten.2 ⟨list.flatten, List.mem_map_of_mem listMem, mem⟩

end DistDirectives
