/-
# Home and guest in a round

In a round nobody is both at home and guest in a match, so the home matches of a player fix the
guest matches (`IsRound.gamesAs_add`).  A round is balanced (`IsBalanced`) as soon as its home
matches are, and then the tally finds nobody unbalanced (`IsRound.unbalanced_eq_nil`).  When some
matches are played the other way round, home matches pass from one player to the other
(`countP_home_swapped`). `Balance.mem_surplus_iff` spells out who counts as being at home too
often.
-/
import Mathlib.Data.List.Nodup
import Matchday.Balance
import Matchday.Proofs.Renaming

namespace Matchday

/-! ## 1. Roles in a round -/

section Roles

variable {τ α : Type} [BEq τ] [Equality τ] [BEq α] [EquivBEq α] {ps : List α} {ms : List (Match τ α)}

/-- Everybody is at home or guest in all matches but those of the others. -/
theorem IsRound.gamesAs_add (h : IsRound ps ms) (hd : AllDifferent ps) {p : α} (hp : p ∈ ps) :
    Tally.gamesAs .home p ms + Tally.gamesAs .guest p ms + 1 = ps.length := by
  have hdisj : ∀ m ∈ ms, (m.home == p) = true → (m.guest == p) = false := by
    intro m hm hhome
    have hs := h.not_self m hm
    rw [BEq.congr_left hhome, BEq.comm] at hs
    exact hs
  have hsplit : ms.countP (Match.involves p)
      = ms.countP (·.home == p) + ms.countP (·.guest == p) := countP_or_of_disjoint hdisj
  have hall := h.countP_involves hd hp
  rw [hsplit] at hall
  exact hall

/-- **Balanced**: everybody is at home, and guest, in half of the matches, rounded down or up. -/
def IsBalanced (ps : List α) (ms : List (Match τ α)) : Prop :=
  ∀ p ∈ ps, ∀ r,
    (ps.length - 1) / 2 ≤ Tally.gamesAs r p ms ∧ Tally.gamesAs r p ms ≤ ps.length / 2

/-- Home matches are enough to look at. -/
theorem IsRound.isBalanced_of_home (h : IsRound ps ms) (hd : AllDifferent ps)
    (hhome : ∀ p ∈ ps, (ps.length - 1) / 2 ≤ Tally.gamesAs .home p ms ∧
      Tally.gamesAs .home p ms ≤ ps.length / 2) : IsBalanced ps ms := by
  intro p hp r
  have hall := h.gamesAs_add hd hp
  have hhome := hhome p hp
  cases r
  · exact hhome
  · omega

end Roles

/-- **Balance does not depend on the names of the participants.** -/
theorem IsBalanced.map {τ τ' α β : Type} [BEq α] [BEq β] {f : τ → τ'} {g : α → β} {ps : List α}
    {ms : List (Match τ α)} (h : IsBalanced ps ms) (hg : TellsApart (· ∈ ps) g)
    (hP : ∀ m ∈ ms, m.home ∈ ps ∧ m.guest ∈ ps) : IsBalanced (ps.map g) (ms.map (·.map f g)) := by
  intro p' hp' r
  obtain ⟨p, hp, rfl⟩ := List.mem_map.mp hp'
  rw [Tally.gamesAs_map hg hP r hp, List.length_map]
  exact h p hp r

section Swapped

variable {τ α : Type} [BEq α]

/-- Whoever swaps home and guest in some matches gains the home matches that others give up. -/
theorem countP_home_swapped (due : Match τ α → Bool) (p : α) (ms : List (Match τ α)) :
    Tally.gamesAs .home p (ms.map fun m => if due m then m.swapped else m)
        + ms.countP (fun m => due m && m.home == p)
      = Tally.gamesAs .home p ms + ms.countP (fun m => due m && m.guest == p) := by
  induction ms with
  | nil => rfl
  | cons m ms ih =>
    simp only [Tally.gamesAs, Match.player, List.map_cons, List.countP_cons] at ih ⊢
    cases hdue : due m with
    | true =>
      have hhome : m.swapped.home = m.guest := rfl
      simp only [Bool.true_and, if_true, hhome]
      omega
    | false =>
      simp only [Bool.false_and, Bool.false_eq_true, if_false]
      omega

end Swapped

/-- **Balance does not depend on the order of the matches.** -/
theorem IsBalanced.perm {τ α : Type} [BEq α] {ps : List α} {ms ns : List (Match τ α)}
    (h : IsBalanced ps ms) (hp : ns.Perm ms) : IsBalanced ps ns := by
  intro p hmem r
  unfold Tally.gamesAs
  rw [hp.countP_eq]
  exact h p hmem r

/-! ## 2. Who is at home too often -/

section Surplus

variable {τ α : Type} [BEq α] [LawfulBEq α] {ps : List α} {ms : List (Match τ α)}

/-- The participants of a round are those who appear in it. -/
theorem IsRound.mem_players_iff [BEq τ] [Equality τ] (h : IsRound ps ms)
    (hd : AllDifferent ps) (h2 : 2 ≤ ps.length) {p : α} : p ∈ Schedule.players ms ↔ p ∈ ps := by
  constructor
  · exact Schedule.of_mem_players h.players_mem
  · intro hp
    have hcount := h.countP_involves hd hp
    obtain ⟨m, hm, hinv⟩ := List.countP_pos_iff.mp (show 0 < ms.countP (Match.involves p) by omega)
    refine List.mem_eraseDups.mpr (List.mem_flatMap.mpr ⟨m, hm, ?_⟩)
    rcases Bool.or_eq_true _ _ |>.mp hinv with hhome | hguest
    · rw [← eq_of_beq hhome]
      exact List.mem_cons_self
    · rw [← eq_of_beq hguest]
      exact List.mem_cons_of_mem _ (List.mem_singleton_self _)

theorem IsRound.length_players [BEq τ] [Equality τ] (h : IsRound ps ms)
    (hd : AllDifferent ps) (h2 : 2 ≤ ps.length) : (Schedule.players ms).length = ps.length := by
  refine ((List.perm_ext_iff_of_nodup ?_ ?_).mpr fun p => h.mem_players_iff hd h2).length_eq
  · exact allDifferent_iff_nodup.mp (allDifferent_eraseDups _)
  · exact allDifferent_iff_nodup.mp hd

omit [LawfulBEq α] in
/-- **Who is at home too often**: a player with more home than guest matches, one of the two counts
being off. -/
theorem Balance.mem_surplus_iff {p : α} :
    p ∈ Balance.surplus ms ↔ p ∈ Schedule.players ms ∧
      ¬ (Tally.isEven (Schedule.players ms).length (Tally.gamesAs .home p ms) = true ∧
        Tally.isEven (Schedule.players ms).length (Tally.gamesAs .guest p ms) = true) ∧
      Tally.gamesAs .guest p ms < Tally.gamesAs .home p ms := by
  have hlen : (Tally.counts ms).length = (Schedule.players ms).length := by
    rw [← Tally.map_player_counts, List.length_map]
  simp only [Balance.surplus, Tally.unbalanced, List.mem_map, List.mem_filter, hlen,
    Bool.not_eq_true', Bool.and_eq_false_iff, decide_eq_true_eq]
  constructor
  · rintro ⟨c, ⟨⟨hc, hodd⟩, hlt⟩, rfl⟩
    obtain ⟨q, hq, rfl⟩ := List.mem_map.mp hc
    refine ⟨hq, ?_, hlt⟩
    rintro ⟨hh, hg⟩
    rcases hodd with hodd | hodd
    · exact absurd (hodd.symm.trans hh) (by simp)
    · exact absurd (hodd.symm.trans hg) (by simp)
  · rintro ⟨hp, hodd, hlt⟩
    refine ⟨⟨p, Tally.gamesAs .home p ms, Tally.gamesAs .guest p ms⟩, ⟨⟨?_, ?_⟩, hlt⟩, rfl⟩
    · exact List.mem_map_of_mem hp
    · rw [← Bool.not_eq_true, ← Bool.not_eq_true]
      exact Decidable.not_and_iff_or_not.mp hodd

/-- **In a balanced round nobody is found unbalanced.** -/
theorem IsRound.unbalanced_eq_nil [BEq τ] [Equality τ] (h : IsRound ps ms)
    (hd : AllDifferent ps) (h2 : 2 ≤ ps.length) (hb : IsBalanced ps ms) :
    Tally.unbalanced ms = [] := by
  have hlen : (Tally.counts ms).length = ps.length := by
    rw [← h.length_players hd h2, ← Tally.map_player_counts, List.length_map]
  have heven : ∀ p ∈ ps, ∀ r, Tally.isEven ps.length (Tally.gamesAs r p ms) = true := by
    intro p hp r
    rw [Tally.isEven, Bool.and_eq_true, decide_eq_true_eq, decide_eq_true_eq]
    exact hb p hp r
  refine List.filter_eq_nil_iff.mpr fun c hc => ?_
  obtain ⟨p, hp, rfl⟩ := List.mem_map.mp hc
  have hp := (h.mem_players_iff hd h2).mp hp
  rw [hlen, heven p hp .home, heven p hp .guest]
  simp

end Surplus

end Matchday
