/-
# What serves as a key

Participants that were accepted serve as keys, and so does the number of a turn.  With keys no check
on the way fails: matches are counted (`mapM_counted`), turns are looked up (`mapM_timed`), and
players are found among the participants (`mapM_asKey`).

Each of these is a pass over a list by a step that does not fail (`mapM_eq_ok`).  A selection and a
loop do not fail either where no step does (`filterM_map_eq_ok`, `forIn_eq_ok`), and it makes no
difference whether matches are given as rows (`mapM_rows`).
-/
import Matchday.Row

namespace Matchday

variable {ε α β : Type}

/-- A step that never fails makes a pass that does not. -/
theorem mapM_eq_ok {f : α → Except ε β} {g : α → β} {xs : List α}
    (h : ∀ x ∈ xs, f x = .ok (g x)) : xs.mapM f = .ok (xs.map g) := by
  induction xs with
  | nil => rfl
  | cons x xs ih =>
    rw [List.mapM_cons, h x List.mem_cons_self, ih fun y hy => h y (List.mem_cons_of_mem x hy)]
    rfl

theorem ok_bind (x : α) (f : α → Except ε β) : (Except.ok x >>= f) = f x := rfl

/-- A test that never fails makes a selection that does not. -/
theorem filterM_map_eq_ok {f : β → Except ε Bool} {g : α → β} {p : α → Bool} {xs : List α}
    (h : ∀ x ∈ xs, f (g x) = .ok (p x)) :
    (xs.map g).filterM f = .ok ((xs.filter p).map g) := by
  have hselect : ∀ chosen, (xs.map g).filterAuxM f chosen
      = .ok (((xs.filter p).map g).reverse ++ chosen) := by
    induction xs with
    | nil => exact fun _ => rfl
    | cons x xs ih =>
      intro chosen
      have ih := ih fun y hy => h y (List.mem_cons_of_mem x hy)
      rw [List.map_cons, List.filterAuxM, h x List.mem_cons_self, ok_bind, List.filter_cons]
      cases p x with
      | true =>
        rw [if_pos rfl, List.map_cons, List.reverse_cons, List.append_assoc]
        exact ih (g x :: chosen)
      | false => exact ih chosen
  rw [List.filterM, hselect, ok_bind, List.append_nil, List.reverse_reverse]
  rfl

/-- A loop over checks that are all passed goes to its end. -/
theorem forIn_eq_ok {f : α → PUnit → Except ε (ForInStep PUnit)} {xs : List α}
    (h : ∀ x ∈ xs, f x ⟨⟩ = .ok (.yield ⟨⟩)) : forIn xs ⟨⟩ f = .ok ⟨⟩ := by
  induction xs with
  | nil => rfl
  | cons x xs ih =>
    rw [List.forIn_cons, h x List.mem_cons_self]
    exact ih fun y hy => h y (List.mem_cons_of_mem x hy)

theorem Value.asKey_of_isKey {v : Value} (h : v.isKey = true) : v.asKey = .ok () := by
  rw [asKey, if_pos h]

/-- Numbers serve as keys. -/
theorem Value.isKey_int (k : Int) : (Value.int k).isKey = true := rfl

theorem mapM_asKey {vs : List Value} (h : ∀ v ∈ vs, v.isKey = true) :
    vs.mapM Value.asKey = .ok (vs.map fun _ => ()) :=
  mapM_eq_ok fun v hv => Value.asKey_of_isKey (h v hv)

/-- Rows of matches are read without fault. -/
theorem mapM_rows (f : Fixture → Except Fault α) (ms : List Fixture) :
    (ms.map Row.ofFixture).mapM (fun r => r.fixture >>= f) = ms.mapM f := by
  rw [List.mapM_map]
  rfl

/-- Matches between keys are counted. -/
theorem mapM_counted {ms : List Fixture}
    (h : ∀ m ∈ ms, m.home.isKey = true ∧ m.guest.isKey = true) :
    ms.mapM Row.counted = .ok ms := by
  have hid : ms.mapM Row.counted = .ok (ms.map id) := by
    refine mapM_eq_ok fun m hm => ?_
    rw [Row.counted, Value.asKey_of_isKey (h m hm).1, Value.asKey_of_isKey (h m hm).2]
    rfl
  rwa [List.map_id] at hid

/-- Matches in turns that are keys are looked up by turn. -/
theorem mapM_timed {ms : List Fixture} (h : ∀ m ∈ ms, m.turn.isKey = true) :
    ms.mapM Row.timed = .ok ms := by
  have hid : ms.mapM Row.timed = .ok (ms.map id) := by
    refine mapM_eq_ok fun m hm => ?_
    rw [Row.timed, Value.asKey_of_isKey (h m hm)]
    rfl
  rwa [List.map_id] at hid

end Matchday
