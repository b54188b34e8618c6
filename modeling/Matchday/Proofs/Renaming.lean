/-
# Renaming

Schedules are worked out on seats or on numbers in a table, and participants take their places only
afterwards.  Whatever is found by comparing players is the same before and after, as long as the
renaming tells apart what it is given and nothing else (`TellsApart`).  Turns may be renamed too.
Where items are asked for equality, the renaming has to keep which of them are equal (`KeepsEqual`);
for items that are equal to themselves that is the same condition (`keepsEqual_of_tellsApart`).

* A round stays a round (`IsRound.map`).
* Counts are those of the renamed players (`Tally.counts_map`), so the same players are unbalanced
  (`Tally.unbalanced_map`), and the repair of the last turn swaps the same matches
  (`Balance.repaired_map`).
* Streaks are those of the renamed players (`Streak.lengths_map`).
-/
import Mathlib.Data.List.Pairwise
import Matchday.Balance
import Matchday.Proofs.Round
import Matchday.Streak
import Matchday.Value.Equivalence

namespace Matchday

variable {τ τ' α β : Type}

/-- The renaming keeps apart what the condition admits, and leaves together what is the same. -/
def TellsApart [BEq α] [BEq β] (P : α → Prop) (g : α → β) : Prop :=
  ∀ ⦃x⦄, P x → ∀ ⦃y⦄, P y → (g x == g y) = (x == y)

/-- Under the renaming the same items are equal, among those that the condition admits. -/
def KeepsEqual [BEq α] [Equality α] [BEq β] [Equality β] (P : α → Prop) (g : α → β) : Prop :=
  ∀ ⦃x⦄, P x → ∀ ⦃y⦄, P y → equals (g x) (g y) = equals x y

/-- Items told apart keep being equal, if those that are equal to themselves are the same. -/
theorem keepsEqual_of_tellsApart [BEq α] [Equality α] [BEq β] [Equality β] [EquivBEq α]
    [EquivBEq β] {P : α → Prop} {g : α → β} (hg : TellsApart P g)
    (hself : ∀ x, P x → equals (g x) (g x) = equals x x) : KeepsEqual P g := by
  intro x hx y hy
  cases h : x == y with
  | false => rw [equals_of_not_beq h, equals_of_not_beq ((hg hx hy).trans h)]
  | true =>
    rw [← equals_congr_right h, ← equals_congr_right ((hg hx hy).trans h)]
    exact hself x hx

/-- Items that keep being equal when they are numbered are equal to themselves, as numbers are. -/
theorem KeepsEqual.equals_self [BEq α] [Equality α] {P : α → Prop} {g : α → Nat}
    (hg : KeepsEqual P g) {x : α} (hx : P x) : equals x x = true :=
  (hg hx hx).symm.trans (equals_nat_self (g x))

/-- Hence they are told apart by their numbers. -/
theorem KeepsEqual.tellsApart [BEq α] [Equality α] [PartialEquivBEq α] {P : α → Prop}
    {g : α → Nat} (hg : KeepsEqual P g) : TellsApart P g := by
  intro x hx y hy
  rw [← equals_nat, hg hx hy, equals_eq_beq (hg.equals_self hy)]

/-- Numbers are told apart when they are written as values. -/
theorem tellsApart_int (P : Nat → Prop) : TellsApart P fun k : Nat => Value.int k := by
  intro i _ j _
  rw [Value.beq_int, Bool.eq_iff_iff, beq_iff_eq, beq_iff_eq]
  exact Int.natCast_inj

/-- Numbers that are written as values are equal when they were. -/
theorem keepsEqual_int (P : Nat → Prop) : KeepsEqual P fun k : Nat => Value.int k :=
  keepsEqual_of_tellsApart (tellsApart_int P) fun k _ => by
    rw [equals_nat_self, Value.equals_int, BEq.rfl]

/-- Different items that get different names are told apart by them. -/
theorem tellsApart_of_allDifferent [BEq α] [BEq β] [EquivBEq α] [EquivBEq β] {xs : List α}
    {g : α → β} (hd : AllDifferent xs) (hd' : AllDifferent (xs.map g)) :
    TellsApart (· ∈ xs) g := by
  have hboth : xs.Pairwise fun x y => (g x == g y) = (x == y) :=
    (List.pairwise_map.mp hd').imp₂ (fun _ _ hnames hitems => hnames.trans hitems.symm) hd
  have hsymm : Std.Symm fun x y => (g x == g y) = (x == y) :=
    ⟨fun x y hxy => by rw [BEq.comm, hxy, BEq.comm]⟩
  intro x hx y hy
  exact hboth.forall_of_forall (fun x _ => by rw [BEq.rfl, BEq.rfl]) hx hy

/-- A renamed item is in a renamed list just when it was in the list. -/
theorem TellsApart.contains_map [BEq α] [BEq β] {P : α → Prop} {g : α → β} (hg : TellsApart P g)
    {xs : List α} (hxs : ∀ x ∈ xs, P x) {p : α} (hp : P p) :
    (xs.map g).contains (g p) = xs.contains p := by
  rw [Bool.eq_iff_iff, List.contains_iff_exists_mem_beq, List.contains_iff_exists_mem_beq]
  constructor
  · rintro ⟨y, hy, hb⟩
    obtain ⟨x, hx, rfl⟩ := List.mem_map.mp hy
    exact ⟨x, hx, (hg hp (hxs x hx)).symm.trans hb⟩
  · rintro ⟨x, hx, hb⟩
    exact ⟨g x, List.mem_map_of_mem hx, (hg hp (hxs x hx)).trans hb⟩

/-! ## 1. Rounds -/

section Rounds

variable {f : τ → τ'} {g : α → β} {P : α → Prop}

/-- A turn of the schedule. -/
def Schedule.IsTurn (ms : List (Match τ α)) (t : τ) : Prop := ∃ m ∈ ms, m.turn = t

/-- The renamed player takes part in the renamed match. -/
theorem Match.involves_map [BEq α] [BEq β] (hg : TellsApart P g) {m : Match τ α}
    (hh : P m.home) (hu : P m.guest) {p : α} (hp : P p) :
    (m.map f g).involves (g p) = m.involves p := by
  unfold Match.involves Match.map
  rw [hg hh hp, hg hu hp]

/-- The renamed players meet in the renamed match. -/
theorem Match.isBetween_map [BEq α] [BEq β] (hg : TellsApart P g) {m : Match τ α}
    (hh : P m.home) (hu : P m.guest) {p q : α} (hp : P p) (hq : P q) :
    (m.map f g).isBetween (g p) (g q) = m.isBetween p q := by
  unfold Match.isBetween Match.map
  rw [hg hh hp, hg hu hq, hg hh hq, hg hu hp]

/-- The matches of a renamed turn. -/
theorem Schedule.ofTurn_map [BEq τ] [Equality τ] [BEq τ'] [Equality τ'] {ms : List (Match τ α)}
    {T : τ → Prop} (hf : KeepsEqual T f) (hT : ∀ m ∈ ms, T m.turn) {t : τ} (ht : T t) :
    Schedule.ofTurn (ms.map (·.map f g)) (f t) = (Schedule.ofTurn ms t).map (·.map f g) := by
  unfold Schedule.ofTurn
  rw [List.filter_map]
  refine congrArg (List.map _) (List.filter_congr fun m hm => ?_)
  exact hf (hT m hm) ht

/-- The turns of a renamed schedule are the renamed turns. -/
theorem Schedule.turns_map [BEq τ] [BEq τ'] {ms : List (Match τ α)}
    (hf : TellsApart (Schedule.IsTurn ms) f) :
    Schedule.turns (ms.map (·.map f g)) = (Schedule.turns ms).map f := by
  have hturn : ∀ t ∈ ms.map (·.turn), Schedule.IsTurn ms t := fun t ht => List.mem_map.mp ht
  rw [Schedule.turns, Schedule.turns, ← eraseDups_map fun s hs t ht => hf (hturn s hs) (hturn t ht),
    List.map_map, List.map_map]
  rfl

variable [BEq α] [BEq β]

/-- **A renamed round is a round of the renamed participants.** -/
theorem IsRound.map [BEq τ] [Equality τ] [BEq τ'] [Equality τ'] [EquivBEq τ'] {ps : List α}
    {ms : List (Match τ α)} (h : IsRound ps ms) (hf : KeepsEqual (Schedule.IsTurn ms) f)
    (hg : TellsApart (· ∈ ps) g) : IsRound (ps.map g) (ms.map (·.map f g)) where
  home_mem := by
    intro m' hm'
    obtain ⟨m, hm, rfl⟩ := List.mem_map.mp hm'
    exact List.mem_map_of_mem (h.home_mem m hm)
  guest_mem := by
    intro m' hm'
    obtain ⟨m, hm, rfl⟩ := List.mem_map.mp hm'
    exact List.mem_map_of_mem (h.guest_mem m hm)
  not_self := by
    intro m' hm'
    obtain ⟨m, hm, rfl⟩ := List.mem_map.mp hm'
    exact (hg (h.home_mem m hm) (h.guest_mem m hm)).trans (h.not_self m hm)
  meet_once := by
    intro p' hp' q' hq' hpq
    obtain ⟨p, hp, rfl⟩ := List.mem_map.mp hp'
    obtain ⟨q, hq, rfl⟩ := List.mem_map.mp hq'
    rw [List.countP_map, ← h.meet_once p hp q hq ((hg hp hq).symm.trans hpq)]
    refine List.countP_congr fun m hm => ?_
    rw [Function.comp_apply, Match.isBetween_map hg (h.home_mem m hm) (h.guest_mem m hm) hp hq]
  once_a_turn := by
    intro t' p' hp'
    obtain ⟨p, hp, rfl⟩ := List.mem_map.mp hp'
    by_cases ht : ∃ m ∈ ms, equals (f m.turn) t' = true
    · obtain ⟨m₀, hm₀, ht⟩ := ht
      have hsame : Schedule.ofTurn (ms.map (·.map f g)) t'
          = Schedule.ofTurn (ms.map (·.map f g)) (f m₀.turn) :=
        List.filter_congr fun m _ => (equals_congr_right (beq_of_equals ht) m.turn).symm
      rw [hsame, Schedule.ofTurn_map hf (fun m hm => ⟨m, hm, rfl⟩) ⟨m₀, hm₀, rfl⟩,
        List.countP_map]
      refine Nat.le_trans (Nat.le_of_eq ?_) (h.once_a_turn m₀.turn p hp)
      refine List.countP_congr fun m hm => ?_
      have hm := List.mem_of_mem_filter hm
      rw [Function.comp_apply, Match.involves_map hg (h.home_mem m hm) (h.guest_mem m hm) hp]
    · -- no match of the schedule has such a turn
      have hnone : Schedule.ofTurn (ms.map (·.map f g)) t' = [] := by
        refine List.filter_eq_nil_iff.mpr fun m' hm' => ?_
        obtain ⟨m, hm, rfl⟩ := List.mem_map.mp hm'
        exact fun h' => ht ⟨m, hm, h'⟩
      rw [hnone]
      exact Nat.zero_le _

/-- **A single round keeps its turns when its participants are renamed.** -/
theorem IsSingleRound.map {ps : List α} {first : Nat} {ms : List (Match Nat α)}
    (h : IsSingleRound ps first ms) (hg : TellsApart (· ∈ ps) g) :
    IsSingleRound (ps.map g) first (ms.map (·.map id g)) := by
  have hturns : (ms.map (·.map id g)).map (·.turn) = ms.map (·.turn) := by
    rw [List.map_map]
    exact List.map_congr_left fun m _ => rfl
  refine ⟨h.round.map (fun _ _ _ _ => rfl) hg, ?_, fun t => ?_⟩
  · rw [hturns]
    exact h.inOrder.ascending
  · rw [hturns, List.length_map]
    exact h.inOrder.turn_iff t

end Rounds

/-- A schedule whose turns are written as values. -/
def Schedule.fixtures (ms : List (Match Nat Value)) : List Fixture :=
  ms.map (·.map (fun k : Nat => .int k) id)

/-- A round stays a round when its turns are written as values. -/
theorem IsRound.fixtures {ps : List Value} {ms : List (Match Nat Value)} (h : IsRound ps ms) :
    IsRound ps (Schedule.fixtures ms) := by
  have hround := h.map (keepsEqual_int (Schedule.IsTurn ms)) (g := id) fun _ _ _ _ => rfl
  rwa [List.map_id] at hround

/-! ## 2. Counts -/

/-- The two players of a match. -/
theorem Match.of_mem_players {P : α → Prop} {m : Match τ α} (hh : P m.home) (hu : P m.guest) {p : α}
    (hp : p ∈ m.players) : P p := by
  rcases List.mem_cons.mp hp with rfl | hp
  · exact hh
  · rw [List.mem_singleton.mp hp]
    exact hu

/-- Players of a schedule meet the condition that all its matches meet. -/
theorem Schedule.of_mem_players [BEq α] {P : α → Prop} {ms : List (Match τ α)}
    (hP : ∀ m ∈ ms, P m.home ∧ P m.guest) {p : α} (hp : p ∈ Schedule.players ms) : P p := by
  obtain ⟨m, hm, hp⟩ := List.mem_flatMap.mp ((eraseDups_sublist _).subset hp)
  exact Match.of_mem_players (hP m hm).1 (hP m hm).2 hp

/-- A count under another name. -/
def Count.map (g : α → β) (c : Count α) : Count β := ⟨g c.player, c.home, c.guest⟩

section Counts

variable [BEq α] [BEq β] {f : τ → τ'} {g : α → β} {P : α → Prop} {ms : List (Match τ α)}

/-- Renamed players appear in the same order. -/
theorem Schedule.players_map (hg : TellsApart P g) (hP : ∀ m ∈ ms, P m.home ∧ P m.guest) :
    Schedule.players (ms.map (·.map f g)) = (Schedule.players ms).map g := by
  have hmem : ∀ p ∈ ms.flatMap Match.players, P p := fun p hp => by
    obtain ⟨m, hm, hp⟩ := List.mem_flatMap.mp hp
    exact Match.of_mem_players (hP m hm).1 (hP m hm).2 hp
  have hflat : (ms.map (·.map f g)).flatMap Match.players
      = (ms.flatMap Match.players).map g := by
    rw [List.flatMap_map, List.map_flatMap]
    rfl
  unfold Schedule.players
  rw [hflat, eraseDups_map fun x hx y hy => hg (hmem x hx) (hmem y hy)]

/-- A renamed player is in a role as often as before. -/
theorem Tally.gamesAs_map (hg : TellsApart P g) (hP : ∀ m ∈ ms, P m.home ∧ P m.guest) (r : Role)
    {p : α} (hp : P p) : Tally.gamesAs r (g p) (ms.map (·.map f g)) = Tally.gamesAs r p ms := by
  unfold Tally.gamesAs
  rw [List.countP_map]
  refine List.countP_congr fun m hm => ?_
  have hr : P (m.player r) := by
    cases r
    · exact (hP m hm).1
    · exact (hP m hm).2
  rw [Function.comp_apply, Match.player_map, hg hr hp]

/-- **Counts are the same under other names.** -/
theorem Tally.counts_map (hg : TellsApart P g) (hP : ∀ m ∈ ms, P m.home ∧ P m.guest) :
    Tally.counts (ms.map (·.map f g)) = (Tally.counts ms).map (Count.map g) := by
  unfold Tally.counts
  rw [Schedule.players_map hg hP, List.map_map, List.map_map]
  refine List.map_congr_left fun p hp => ?_
  have hp := Schedule.of_mem_players hP hp
  rw [Function.comp_apply, Function.comp_apply, Tally.gamesAs_map hg hP .home hp,
    Tally.gamesAs_map hg hP .guest hp]
  rfl

/-- **The same players are unbalanced under other names.** -/
theorem Tally.unbalanced_map (hg : TellsApart P g) (hP : ∀ m ∈ ms, P m.home ∧ P m.guest) :
    Tally.unbalanced (ms.map (·.map f g)) = (Tally.unbalanced ms).map (Count.map g) := by
  unfold Tally.unbalanced
  dsimp only
  rw [Tally.counts_map hg hP, List.length_map, List.filter_map]
  rfl

/-- The same players are at home too often. -/
theorem Balance.surplus_map (hg : TellsApart P g) (hP : ∀ m ∈ ms, P m.home ∧ P m.guest) :
    Balance.surplus (ms.map (·.map f g)) = (Balance.surplus ms).map g := by
  unfold Balance.surplus
  rw [Tally.unbalanced_map hg hP, List.filter_map, List.map_map, List.map_map]
  rfl

/-- Whoever is at home too often is a player of the schedule. -/
theorem Balance.mem_players_of_mem_surplus {p : α} (hp : p ∈ Balance.surplus ms) :
    p ∈ Schedule.players ms := by
  obtain ⟨c, hc, rfl⟩ := List.mem_map.mp hp
  rw [← Tally.map_player_counts]
  exact List.mem_map_of_mem (List.mem_of_mem_filter (List.mem_of_mem_filter hc))

/-- **The repair swaps the same matches under other names.** -/
theorem Balance.repaired_map [BEq τ] [Equality τ] [BEq τ'] [Equality τ'] {T : τ → Prop}
    (hf : KeepsEqual T f) (hT : ∀ m ∈ ms, T m.turn) (hg : TellsApart P g)
    (hP : ∀ m ∈ ms, P m.home ∧ P m.guest) {t : τ} (ht : T t) :
    Balance.repaired (f t) (ms.map (·.map f g)) = (Balance.repaired t ms).map (·.map f g) := by
  have hdue : ∀ m ∈ ms, Balance.isDue (f t) (Balance.surplus (ms.map (·.map f g))) (m.map f g)
      = Balance.isDue t (Balance.surplus ms) m := by
    intro m hm
    have hahead : ((Balance.surplus ms).map g).contains (g m.home)
        = (Balance.surplus ms).contains m.home :=
      hg.contains_map (fun p hp =>
        Schedule.of_mem_players hP (Balance.mem_players_of_mem_surplus hp)) (hP m hm).1
    rw [Balance.surplus_map hg hP, Balance.isDue, Balance.isDue, ← hahead]
    exact congrArg (· && _) (hf (hT m hm) ht)
  unfold Balance.repaired
  rw [List.map_map, List.map_map]
  refine List.map_congr_left fun m hm => ?_
  rw [Function.comp_apply, Function.comp_apply, hdue m hm]
  split
  · exact Match.swapped_map f g m
  · rfl

end Counts

/-! ## 3. Streaks -/

/-- **Streaks are the same under other names**, if the same players as before are equal to the one
in question. -/
theorem Streak.lengths_map [BEq α] [Equality α] [BEq β] [Equality β] {f : τ → τ'} {g : α → β}
    {P : α → Prop} {ms : List (Match τ α)} {p : α} (hg : ∀ x, P x → equals (g x) (g p) = equals x p)
    (hP : ∀ m ∈ ms, P m.home ∧ P m.guest) (r : Role) :
    Streak.lengths r (g p) (ms.map (·.map f g)) = Streak.lengths r p ms := by
  have hsight : ∀ m ∈ ms.reverse,
      (Streak.sight r (g p) ∘ Match.map f g) m = Streak.sight r p m := by
    intro m hm
    have hplayer : ∀ q, equals (g (m.player q)) (g p) = equals (m.player q) p := by
      obtain ⟨hhome, hguest⟩ := hP m (List.mem_reverse.mp hm)
      rintro (_ | _)
      · exact hg _ hhome
      · exact hg _ hguest
    rw [Function.comp_apply, Streak.sight, Match.player_map, Match.player_map, hplayer, hplayer,
      Streak.sight]
  rw [Streak.lengths, ← List.map_reverse, List.map_map, List.map_congr_left hsight, Streak.lengths]

end Matchday
