/-
# Other orders and other orientations

Two things are done to a schedule once its pairings are fixed: matches are played the other way
round, and turns change places.  Neither touches who meets whom in which turn.  `Turned` relates
schedules that have the same matches in the same places except for who is at home, and a change of
order is a permutation.  Under both a round stays a round (`IsRound.turned`, `IsRound.perm`).  If
turns keep their places as well, a single round stays a single round (`IsSingleRound.turned`).
`TurnedIn` also says in which turns matches are played the other way round; other turns are not
touched (`TurnedIn.ofTurn_eq`).
-/
import Mathlib.Data.List.Forall2
import Matchday.Balance
import Matchday.Proofs.Round

namespace Matchday

variable {τ α : Type} {ms ns : List (Match τ α)}

/-- The same matches in the same places, some of them played the other way round. -/
def Turned (ms ns : List (Match τ α)) : Prop :=
  List.Forall₂ (fun m n => n = m ∨ n = m.swapped) ms ns

namespace Turned

theorem refl (ms : List (Match τ α)) : Turned ms ms := List.forall₂_same.mpr fun _ _ => Or.inl rfl

/-- Some matches of a list swapped. -/
theorem of_map {g : Match τ α → Match τ α} (hg : ∀ m ∈ ms, g m = m ∨ g m = m.swapped) :
    Turned ms (ms.map g) :=
  List.forall₂_map_right_iff.mpr (List.forall₂_same.mpr hg)

/-- Swapping twice is no more than swapping once. -/
theorem trans {os : List (Match τ α)} (h : Turned ms ns) (h' : Turned ns os) : Turned ms os := by
  induction h generalizing os with
  | nil => exact h'
  | @cons m n ms ns hmn _ ih =>
    obtain ⟨o, os, hno, hrest, rfl⟩ := List.forall₂_cons_left_iff.mp h'
    refine List.Forall₂.cons ?_ (ih hrest)
    rcases hmn with rfl | rfl
    · exact hno
    · rcases hno with rfl | rfl
      · exact Or.inr rfl
      · exact Or.inl rfl

/-- Turns stay where they are. -/
theorem map_turn (h : Turned ms ns) : ns.map (·.turn) = ms.map (·.turn) := by
  induction h with
  | nil => rfl
  | cons hmn _ ih =>
    rw [List.map_cons, List.map_cons, ih]
    rcases hmn with rfl | rfl <;> rfl

theorem turns_eq [BEq τ] (h : Turned ms ns) : Schedule.turns ns = Schedule.turns ms := by
  rw [Schedule.turns, h.map_turn, Schedule.turns]

/-- **What does not depend on who is at home is counted as before.** -/
theorem countP_eq (h : Turned ms ns) {f : Match τ α → Bool} (hf : ∀ m, f m.swapped = f m) :
    ns.countP f = ms.countP f := by
  induction h with
  | nil => rfl
  | cons hmn _ ih =>
    rw [List.countP_cons, List.countP_cons, ih]
    rcases hmn with rfl | rfl
    · rfl
    · rw [hf]

/-- The matches of a turn are those of the turn, some of them swapped. -/
theorem ofTurn [BEq τ] [Equality τ] (h : Turned ms ns) (t : τ) :
    Turned (Schedule.ofTurn ms t) (Schedule.ofTurn ns t) := by
  refine List.rel_filter (R := fun m n : Match τ α => n = m ∨ n = m.swapped) ?_ h
  rintro m n (rfl | rfl) <;> exact Iff.rfl

/-- Turn by turn, in whatever order, matches stay the same but for who is at home. -/
theorem turnByTurn [BEq τ] [Equality τ] (h : Turned ms ns) (ts : List τ) :
    Turned (ts.flatMap (Schedule.ofTurn ms)) (ts.flatMap (Schedule.ofTurn ns)) := by
  induction ts with
  | nil => exact Turned.refl []
  | cons t ts ih => exact List.rel_append (h.ofTurn t) ih

/-- A match comes from one with the same players. -/
theorem exists_of_mem (h : Turned ms ns) {n : Match τ α} (hn : n ∈ ns) :
    ∃ m ∈ ms, n = m ∨ n = m.swapped := by
  induction h with
  | nil => exact absurd hn List.not_mem_nil
  | @cons m n' ms ns hmn _ ih =>
    rcases List.mem_cons.mp hn with rfl | hn
    · exact ⟨m, List.mem_cons_self, hmn⟩
    · obtain ⟨m', hm', hmn'⟩ := ih hn
      exact ⟨m', List.mem_cons_of_mem m hm', hmn'⟩

/-- What holds of all turns still does. -/
theorem forall_turn {P : τ → Prop} (h : Turned ms ns) (hP : ∀ m ∈ ms, P m.turn) :
    ∀ n ∈ ns, P n.turn := by
  intro n hn
  obtain ⟨m, hm, rfl | rfl⟩ := h.exists_of_mem hn
  · exact hP n hm
  · exact hP m hm

/-- Nobody comes to play against himself. -/
theorem not_self [BEq α] [PartialEquivBEq α] (h : Turned ms ns)
    (hself : ∀ m ∈ ms, (m.home == m.guest) = false) : ∀ n ∈ ns, (n.home == n.guest) = false := by
  intro n hn
  obtain ⟨m, hm, rfl | rfl⟩ := h.exists_of_mem hn
  · exact hself n hm
  · exact BEq.comm.trans (hself m hm)

/-- No two players of a match come to be equal. -/
theorem not_equals [BEq α] [Equality α] [PartialEquivBEq α] (h : Turned ms ns)
    (hself : ∀ m ∈ ms, equals m.home m.guest = false) :
    ∀ n ∈ ns, equals n.home n.guest = false := by
  intro n hn
  obtain ⟨m, hm, rfl | rfl⟩ := h.exists_of_mem hn
  · exact hself n hm
  · exact (equals_comm _ _).trans (hself m hm)

/-- What does not depend on who is at home is counted in a turn as before. -/
theorem countP_ofTurn_eq [BEq τ] [Equality τ] (h : Turned ms ns) (t : τ) {f : Match τ α → Bool}
    (hf : ∀ m, f m.swapped = f m) :
    (Schedule.ofTurn ns t).countP f = (Schedule.ofTurn ms t).countP f :=
  (h.ofTurn t).countP_eq hf

end Turned

/-- The same matches in the same places, some of them played the other way round, but only in the
turns in question. -/
def TurnedIn (D : τ → Prop) (ms ns : List (Match τ α)) : Prop :=
  List.Forall₂ (fun m n => n = m ∨ n = m.swapped ∧ D m.turn) ms ns

namespace TurnedIn

variable {D E : τ → Prop}

theorem refl (D : τ → Prop) (ms : List (Match τ α)) : TurnedIn D ms ms :=
  List.forall₂_same.mpr fun _ _ => Or.inl rfl

theorem turned (h : TurnedIn D ms ns) : Turned ms ns :=
  h.imp fun _ _ hmn => hmn.imp_right And.left

theorem mono (h : TurnedIn D ms ns) (hDE : ∀ t, D t → E t) : TurnedIn E ms ns :=
  h.imp fun _ _ hmn => hmn.imp_right fun hswap => ⟨hswap.1, hDE _ hswap.2⟩

/-- Two schedules one after the other. -/
theorem append {ms' ns' : List (Match τ α)} (h : TurnedIn D ms ns) (h' : TurnedIn D ms' ns') :
    TurnedIn D (ms ++ ms') (ns ++ ns') :=
  List.rel_append (R := fun m n : Match τ α => n = m ∨ n = m.swapped ∧ D m.turn) h h'

/-- Swapping twice in the same turns is no more than swapping once. -/
theorem trans {os : List (Match τ α)} (h : TurnedIn D ms ns) (h' : TurnedIn D ns os) :
    TurnedIn D ms os := by
  induction h generalizing os with
  | nil => exact h'
  | @cons m n ms ns hmn _ ih =>
    obtain ⟨o, os, hno, hrest, rfl⟩ := List.forall₂_cons_left_iff.mp h'
    refine List.Forall₂.cons ?_ (ih hrest)
    rcases hmn with rfl | ⟨rfl, hturn⟩
    · exact hno
    · rcases hno with rfl | ⟨rfl, -⟩
      · exact Or.inr ⟨rfl, hturn⟩
      · exact Or.inl rfl

/-- **Other turns are not touched.** -/
theorem ofTurn_eq [BEq τ] [Equality τ] (h : TurnedIn D ms ns) {u : τ}
    (hu : ∀ t, D t → (t == u) = false) : Schedule.ofTurn ns u = Schedule.ofTurn ms u := by
  unfold Schedule.ofTurn
  induction h with
  | nil => rfl
  | cons hmn _ ih =>
    rw [List.filter_cons, List.filter_cons, ih]
    rcases hmn with rfl | ⟨rfl, hturn⟩
    · rfl
    · rw [Match.turn_swapped, equals_of_not_beq (hu _ hturn)]
      rfl

/-- Turns other than the one in question stay as they are, one after the other. -/
theorem flatMap_ofTurn [BEq τ] [Equality τ] [PartialEquivBEq τ] {t : τ} {ts : List τ}
    (h : TurnedIn (· == t) ms ns) (ht : ∀ u ∈ ts, (t == u) = false) :
    ts.flatMap (Schedule.ofTurn ns) = ts.flatMap (Schedule.ofTurn ms) :=
  List.flatMap_congr fun u hu => h.ofTurn_eq fun _ hv => (BEq.congr_left hv).trans (ht u hu)

end TurnedIn

section TurnByTurn

variable [BEq τ] [EquivBEq τ] {ts : List τ}

/-- Turns in another order are different from each other. -/
theorem Schedule.allDifferent_of_perm (h : ts.Perm (Schedule.turns ms)) : AllDifferent ts :=
  h.symm.pairwise (allDifferent_eraseDups _) fun {_ _} hst => BEq.comm.trans hst

variable [Equality τ]

/-- **Turn by turn.**  The matches of all turns, one turn after the other, are all matches in
another order. -/
theorem Schedule.perm_turnByTurn (hd : AllDifferent ts)
    (hall : ∀ m ∈ ms, ∃ t ∈ ts, equals m.turn t = true) :
    (ts.flatMap (Schedule.ofTurn ms)).Perm ms := by
  induction ts generalizing ms with
  | nil =>
    have hnil : ms = [] := List.eq_nil_iff_forall_not_mem.mpr fun m hm => by
      obtain ⟨t, ht, -⟩ := hall m hm
      exact List.not_mem_nil ht
    rw [hnil]
    exact List.Perm.refl []
  | cons t ts ih =>
    obtain ⟨ht, hts⟩ := allDifferent_cons.mp hd
    -- the other turns are those of the matches that are not in the first one
    have hrest : ∀ u ∈ ts, Schedule.ofTurn ms u
        = Schedule.ofTurn (ms.filter fun m => !equals m.turn t) u := by
      intro u hu
      rw [Schedule.ofTurn, Schedule.ofTurn, List.filter_filter]
      refine List.filter_congr fun m _ => ?_
      cases hmu : equals m.turn u with
      | false => rfl
      | true =>
        rw [equals_congr_left (beq_of_equals hmu), equals_of_not_beq (BEq.comm.trans (ht u hu))]
        rfl
    have hflat : ts.flatMap (Schedule.ofTurn ms)
        = ts.flatMap (Schedule.ofTurn (ms.filter fun m => !equals m.turn t)) :=
      List.flatMap_congr hrest
    have hperm : (ts.flatMap (Schedule.ofTurn (ms.filter fun m => !equals m.turn t))).Perm
        (ms.filter fun m => !equals m.turn t) := by
      refine ih hts fun m hm => ?_
      obtain ⟨hm, hmt⟩ := List.mem_filter.mp hm
      obtain ⟨u, hu, hmu⟩ := hall m hm
      rcases List.mem_cons.mp hu with rfl | hu
      · rw [hmu] at hmt
        cases hmt
      · exact ⟨u, hu, hmu⟩
    rw [List.flatMap_cons, hflat]
    exact (List.Perm.append_left _ hperm).trans
      (List.filter_append_perm (fun m : Match τ α => equals m.turn t) ms)

/-- **All turns of a schedule, in any order, have all its matches** whose turn is equal to itself. -/
theorem Schedule.perm_of_perm_turns (h : ts.Perm (Schedule.turns ms)) :
    (ts.flatMap (Schedule.ofTurn ms)).Perm (ms.filter fun m => equals m.turn m.turn) := by
  have hfound : ts.flatMap (Schedule.ofTurn ms)
      = ts.flatMap (Schedule.ofTurn (ms.filter fun m => equals m.turn m.turn)) := by
    refine List.flatMap_congr fun t _ => ?_
    rw [Schedule.ofTurn, Schedule.ofTurn, List.filter_filter]
    refine List.filter_congr fun m _ => ?_
    cases hmt : equals m.turn t with
    | false => rfl
    | true => rw [equals_self_of_equals ((equals_comm _ _).trans hmt), Bool.true_and]
  rw [hfound]
  refine Schedule.perm_turnByTurn (Schedule.allDifferent_of_perm h) fun m hm => ?_
  obtain ⟨hm, hself⟩ := List.mem_filter.mp hm
  have hany : (Schedule.turns ms).any (· == m.turn) = true := by
    rw [Schedule.turns, any_beq_eraseDups]
    exact List.any_eq_true.mpr ⟨m.turn, List.mem_map_of_mem hm, BEq.rfl⟩
  obtain ⟨t, ht, htm⟩ := List.any_eq_true.mp hany
  exact ⟨t, h.mem_iff.mpr ht, (equals_congr_right htm m.turn).trans hself⟩

/-- If all turns are equal to themselves, they have all matches. -/
theorem Schedule.perm_of_equal_turns (h : ts.Perm (Schedule.turns ms))
    (hself : ∀ m ∈ ms, equals m.turn m.turn = true) : (ts.flatMap (Schedule.ofTurn ms)).Perm ms := by
  have hperm := Schedule.perm_of_perm_turns h
  rwa [List.filter_eq_self.mpr hself] at hperm

end TurnByTurn

section Rounds

variable [BEq α] {ps : List α}

/-- **A round stays a round when matches are played the other way round.** -/
theorem IsRound.turned [BEq τ] [Equality τ] [PartialEquivBEq α] (h : IsRound ps ms)
    (ht : Turned ms ns) : IsRound ps ns where
  home_mem := by
    intro n hn
    obtain ⟨m, hm, rfl | rfl⟩ := ht.exists_of_mem hn
    · exact h.home_mem n hm
    · exact h.guest_mem m hm
  guest_mem := by
    intro n hn
    obtain ⟨m, hm, rfl | rfl⟩ := ht.exists_of_mem hn
    · exact h.guest_mem n hm
    · exact h.home_mem m hm
  not_self := ht.not_self h.not_self
  meet_once := by
    intro p hp q hq hpq
    rw [ht.countP_eq (Match.isBetween_swapped p q)]
    exact h.meet_once p hp q hq hpq
  once_a_turn := by
    intro t p hp
    rw [ht.countP_ofTurn_eq t (Match.involves_swapped p)]
    exact h.once_a_turn t p hp

/-- **A round stays a round in any other order.** -/
theorem IsRound.perm [BEq τ] [Equality τ] (h : IsRound ps ms) (hp : ns.Perm ms) :
    IsRound ps ns where
  home_mem := fun n hn => h.home_mem n (hp.mem_iff.mp hn)
  guest_mem := fun n hn => h.guest_mem n (hp.mem_iff.mp hn)
  not_self := fun n hn => h.not_self n (hp.mem_iff.mp hn)
  meet_once := by
    intro p hp' q hq hpq
    rw [hp.countP_eq]
    exact h.meet_once p hp' q hq hpq
  once_a_turn := by
    intro t p hp'
    have hturn : (Schedule.ofTurn ns t).Perm (Schedule.ofTurn ms t) := hp.filter _
    rw [hturn.countP_eq]
    exact h.once_a_turn t p hp'

/-- **A single round stays a single round when matches are played the other way round.** -/
theorem IsSingleRound.turned [PartialEquivBEq α] {ms ns : List (Match Nat α)} {first : Nat}
    (h : IsSingleRound ps first ms) (ht : Turned ms ns) : IsSingleRound ps first ns := by
  refine ⟨h.round.turned ht, ?_, fun t => ?_⟩
  · rw [ht.map_turn]
    exact h.inOrder.ascending
  · rw [ht.map_turn]
    exact h.inOrder.turn_iff t

end Rounds

/-- The repair plays matches the other way round, and no more. -/
theorem Balance.turned_repaired [BEq τ] [Equality τ] [BEq α] (t : τ) (ms : List (Match τ α)) :
    Turned ms (Balance.repaired t ms) := by
  refine Turned.of_map fun m _ => ?_
  split
  · exact Or.inr rfl
  · exact Or.inl rfl

end Matchday
