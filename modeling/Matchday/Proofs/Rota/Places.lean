/-
# Duties by place

Referees are compared, counted and listed, and nothing else is done with them.  So it is enough to
know of each place how often it has been on duty, which one was so last (`Shares`), and who is equal
to himself: then the place that goes on duty next is found without looking at the referees
(`Shares.Of.pick?_eq`).  What is known afterwards follows from it (`Shares.Of.onDuty`).

Hence referees with other names, equal to themselves where the first ones were, have the same duties
(`duties_map`).  Before the first duty nobody was on duty last, which is written as nothing at all;
no referee may be called that (`Shares.of_nil`).
-/
import Matchday.Proofs.Circle.Seating
import Matchday.Proofs.Rota.Rounds

namespace Matchday.Rota

/-! ## 1. Shares of duties -/

/-- Which places are taken by somebody who is equal to himself. -/
def sound (refs : List Value) : List Bool := refs.map fun p => equals p p

theorem length_sound (refs : List Value) : (sound refs).length = refs.length := List.length_map _

/-- How duties are shared: the number of them that each place has had, and the place that was on
duty last. -/
structure Shares where
  counts : List Nat
  last : Option Nat

namespace Shares

variable {es : List Bool} {i j home guest : Nat}

/-- Those on the places are equal: it is one place, and whoever takes it is equal to himself. -/
def equalAt (es : List Bool) (i j : Nat) : Bool := i == j && es.getD i false

/-- The places of those who do not play in a match between two places. -/
def free (es : List Bool) (home guest : Nat) : List Nat :=
  (List.range es.length).filter fun i => !equalAt es i home && !equalAt es i guest

/-- The free places without the one on duty last, unless none is left then. -/
def rested (es : List Bool) (s : Shares) (cs : List Nat) : List Nat :=
  let others := cs.filter fun i => !s.last.any (equalAt es i)
  if others.isEmpty then cs else others

/-- The place that goes on duty in a match between two places. -/
def pick? (es : List Bool) (s : Shares) (home guest : Nat) : Option Nat :=
  Pick.least (s.counts.getD · 0) (s.rested es (free es home guest))

/-- The shares after one duty more. -/
def onDuty (i : Nat) (s : Shares) : Shares := ⟨s.counts.modify i (· + 1), some i⟩

/-- The shares before the first duty. -/
def initial (n : Nat) : Shares := ⟨List.replicate n 0, none⟩

theorem lt_of_mem_free (h : i ∈ free es home guest) : i < es.length :=
  List.mem_range.mp (List.mem_of_mem_filter h)

theorem lt_of_mem_rested {s : Shares} (h : i ∈ s.rested es (free es home guest)) :
    i < es.length := by
  unfold rested at h
  dsimp only at h
  split at h
  · exact lt_of_mem_free h
  · exact lt_of_mem_free (List.mem_of_mem_filter h)

/-- A place that goes on duty is one of those there are. -/
theorem lt_of_pick? {s : Shares} (h : s.pick? es home guest = some i) : i < es.length :=
  lt_of_mem_rested (Pick.mem_of_least h)

/-! ## 2. Referees -/

/-- **The shares are those of the referees** after some duties. -/
structure Of (refs assigned : List Value) (s : Shares) : Prop where
  counts : s.counts = refs.map assigned.count
  last : ∀ i < refs.length, s.last.any (equalAt (sound refs) i)
    = equals (Circle.sitting refs i) (lastOnDuty assigned)

variable {refs assigned : List Value} {s : Shares}

/-- On different places those who are equal sit on one place. -/
theorem equals_sitting (hd : AllDifferent refs) (hi : i < refs.length) (hj : j < refs.length) :
    equals (Circle.sitting refs i) (Circle.sitting refs j) = equalAt (sound refs) i j := by
  have htells := Circle.tellsApart_sitting hd (List.mem_range.mpr hi) (List.mem_range.mpr hj)
  have hself : (sound refs).getD i false
      = equals (Circle.sitting refs i) (Circle.sitting refs i) := by
    rw [sound, List.getD_eq_getElem?_getD, List.getElem?_map, List.getElem?_eq_getElem hi,
      Circle.sitting_of_lt hi]
    rfl
  rw [equalAt, hself]
  cases hij : i == j with
  | false => exact equals_of_not_beq (htells.trans hij)
  | true => rw [Bool.true_and, equals_congr_right (htells.trans hij)]

/-- Before the first duty everybody has had none, and nobody is called nothing. -/
theorem of_nil (hnone : .none ∉ refs) : (initial refs.length).Of refs [] where
  counts := List.map_const'.symm
  last := by
    intro i hi
    refine (equals_of_not_beq (Bool.eq_false_iff.mpr fun hbeq => hnone ?_)).symm
    rw [← Value.beq_none_iff.mp hbeq, Circle.sitting_of_lt hi]
    exact List.getElem_mem hi

namespace Of

theorem getD_counts (h : s.Of refs assigned) (hi : i < refs.length) :
    s.counts.getD i 0 = assigned.count (Circle.sitting refs i) := by
  rw [h.counts, List.getD_eq_getElem?_getD, List.getElem?_map, List.getElem?_eq_getElem hi,
    Circle.sitting_of_lt hi]
  rfl

/-- **A place on duty** counts for the one who takes it. -/
theorem onDuty (h : s.Of refs assigned) (hd : AllDifferent refs) (hi : i < refs.length) :
    (s.onDuty i).Of refs (assigned ++ [Circle.sitting refs i]) where
  counts := by
    refine List.ext_getElem ?_ fun j hj _ => ?_
    · rw [Shares.onDuty, List.length_modify, h.counts, List.length_map, List.length_map]
    · have hj : j < refs.length := by
        rwa [Shares.onDuty, List.length_modify, h.counts, List.length_map] at hj
      have htells := Circle.tellsApart_sitting hd (List.mem_range.mpr hi) (List.mem_range.mpr hj)
      rw [Circle.sitting_of_lt hj] at htells
      simp only [Shares.onDuty, List.getElem_modify, h.counts, List.getElem_map, count_concat,
        htells, beq_iff_eq]
      split <;> rfl
  last := by
    intro j hj
    rw [lastOnDuty_concat, equals_sitting hd hj hi]
    rfl

/-- The same are free. -/
theorem free_eq (hd : AllDifferent refs) (hhome : home < refs.length)
    (hguest : guest < refs.length) :
    Rota.free refs (Circle.sitting refs home) (Circle.sitting refs guest)
      = (free (sound refs) home guest).map (Circle.sitting refs) := by
  calc Rota.free refs (Circle.sitting refs home) (Circle.sitting refs guest)
      = Rota.free ((List.range refs.length).map (Circle.sitting refs))
          (Circle.sitting refs home) (Circle.sitting refs guest) := by
        rw [Circle.map_sitting_range]
    _ = (free (sound refs) home guest).map (Circle.sitting refs) := by
        rw [Rota.free, List.filter_map, free, length_sound]
        refine congrArg (List.map _) (List.filter_congr fun i hi => ?_)
        rw [Function.comp_apply, equals_sitting hd (List.mem_range.mp hi) hhome,
          equals_sitting hd (List.mem_range.mp hi) hguest]

/-- The same are rested. -/
theorem rested_eq (h : s.Of refs assigned) {cs : List Nat} (hcs : ∀ i ∈ cs, i < refs.length) :
    Rota.rested assigned (cs.map (Circle.sitting refs))
      = (s.rested (sound refs) cs).map (Circle.sitting refs) := by
  have hothers : (cs.map (Circle.sitting refs)).filter (!equals · (lastOnDuty assigned))
      = (cs.filter fun i => !s.last.any (equalAt (sound refs) i)).map (Circle.sitting refs) := by
    rw [List.filter_map]
    refine congrArg (List.map _) (List.filter_congr fun i hi => ?_)
    rw [Function.comp_apply, h.last i (hcs i hi)]
  unfold Rota.rested Shares.rested
  dsimp only
  rw [hothers, List.isEmpty_map]
  split <;> rfl

/-- **The referee who is picked takes the place that is picked.** -/
theorem pick?_eq (h : s.Of refs assigned) (hd : AllDifferent refs) (hhome : home < refs.length)
    (hguest : guest < refs.length) :
    Rota.pick? refs assigned (Circle.sitting refs home) (Circle.sitting refs guest)
      = (s.pick? (sound refs) home guest).map (Circle.sitting refs) := by
  have hfree : ∀ i ∈ free (sound refs) home guest, i < refs.length := fun i hi =>
    length_sound refs ▸ lt_of_mem_free hi
  rw [Rota.pick?, free_eq hd hhome hguest, h.rested_eq hfree]
  exact Pick.least_map fun i hi => (h.getD_counts (length_sound refs ▸ lt_of_mem_rested hi)).symm

end Of
end Shares

/-! ## 3. Other names -/

/-- **Under other names the same are on duty.** -/
theorem duties_map {refs assigned : List Value} {f : Value → Value} {s : Shares}
    (hd : AllDifferent refs) (hd' : AllDifferent (refs.map f))
    (hself : ∀ p ∈ refs, equals (f p) (f p) = equals p p) (h : s.Of refs assigned)
    (h' : s.Of (refs.map f) (assigned.map f)) {τ τ' : Type} {u : τ → τ'}
    {ms : List (Match τ Value)} (hms : ∀ m ∈ ms, m.home ∈ refs ∧ m.guest ∈ refs) :
    duties (refs.map f) (assigned.map f) (ms.map (·.map u f))
      = (duties refs assigned ms).map (List.map f) := by
  have hsound : sound (refs.map f) = sound refs := by
    rw [sound, List.map_map]
    exact List.map_congr_left hself
  have hlen : (refs.map f).length = refs.length := List.length_map f
  induction ms generalizing assigned s with
  | nil => rfl
  | cons m ms ih =>
    obtain ⟨hhome, hguest⟩ := hms m List.mem_cons_self
    obtain ⟨home, hi, hhome⟩ := Circle.exists_place_of_mem hhome
    obtain ⟨guest, hj, hguest⟩ := Circle.exists_place_of_mem hguest
    have hpick := h.pick?_eq hd hi hj
    have hpick' := h'.pick?_eq hd' (hlen ▸ hi) (hlen ▸ hj)
    rw [hsound, Circle.sitting_map hi, Circle.sitting_map hj, hhome, hguest] at hpick'
    rw [hhome, hguest] at hpick
    have hplayers : (m.map u f).home = f m.home ∧ (m.map u f).guest = f m.guest := ⟨rfl, rfl⟩
    rw [List.map_cons, duties, duties, hplayers.1, hplayers.2, hpick, hpick']
    cases hplace : s.pick? (sound refs) home guest with
    | none => rfl
    | some k =>
      have hk : k < refs.length := length_sound refs ▸ Shares.lt_of_pick? hplace
      have hmore := h'.onDuty hd' (hlen ▸ hk)
      rw [Circle.sitting_map hk, ← List.map_singleton, ← List.map_append] at hmore
      have ih := ih (h.onDuty hd hk) hmore fun n hn => hms n (List.mem_cons_of_mem m hn)
      simp only [Option.map_some, Option.bind_eq_bind, Option.bind_some]
      rw [Circle.sitting_map hk, ← List.map_singleton, ← List.map_append, ih]
      cases duties refs (assigned ++ [Circle.sitting refs k]) ms with
      | none => rfl
      | some vs => rfl

end Matchday.Rota
