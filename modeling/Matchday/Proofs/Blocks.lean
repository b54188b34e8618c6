/-
# Blocks of a role

Wherever two roles of a player that follow each other differ, a block ends and another one begins.
The blocks of a role (`Streak.blocks`) are what its streaks ought to be: as long as they can be, and
whatever matches of others lie in between.

A reader of streaks has only the length so far of the one that is open.  Block by block it reports
the same lengths (`runs_eq_blocks`), and it reads backwards, so the last block comes first
(`filter_lengths_eq_blocks`).  Zeros apart, the report of a schedule is therefore its blocks
(`report_blocks`): together they have all matches in the role, and the longest streak is the longest
block.  The first length that is reported belongs to the last match of the schedule, so it is the
streak in which a player stands only if that match is one of the player's own (`current_concat`).
-/
import Mathlib.Data.List.SplitBy
import Matchday.Proofs.Keys
import Matchday.Proofs.Streaks

namespace Matchday

variable {τ α : Type}

namespace Streak

/-! ## 1. Cutting into blocks -/

/-- The lengths of the blocks of a role, the first one first. -/
def blocks (r : Role) (qs : List Role) : List Nat :=
  ((qs.splitBy (· == ·)).filter (·.contains r)).map List.length

/-- The roles cut backwards are the blocks backwards. -/
theorem splitBy_reverse (qs : List Role) :
    qs.reverse.splitBy (· == ·) = ((qs.splitBy (· == ·)).map List.reverse).reverse := by
  obtain ⟨hflat, hnil, hchain, hcut⟩ := List.splitBy_eq_iff.mp (rfl : qs.splitBy (· == ·) = _)
  refine List.splitBy_eq_iff.mpr ⟨?_, ?_, ?_, ?_⟩
  · rw [← List.reverse_flatten, ← hflat]
  · rw [List.mem_reverse, List.mem_map]
    rintro ⟨b, hb, hrev⟩
    rw [List.reverse_eq_nil_iff.mp hrev] at hb
    exact hnil hb
  · intro b hb
    obtain ⟨c, hc, rfl⟩ := List.mem_map.mp (List.mem_reverse.mp hb)
    refine List.isChain_reverse.mpr ((hchain c hc).imp fun x y hxy => ?_)
    exact BEq.symm hxy
  · refine List.isChain_reverse.mpr (List.isChain_map _ |>.mpr (hcut.imp ?_))
    rintro b c ⟨hb, hc, hbc⟩
    refine ⟨List.reverse_ne_nil_iff.mpr hc, List.reverse_ne_nil_iff.mpr hb, ?_⟩
    rw [List.getLast_reverse, List.head_reverse, BEq.comm]
    exact hbc

/-- **Backwards the last block comes first.** -/
theorem blocks_reverse (r : Role) (qs : List Role) :
    blocks r qs.reverse = (blocks r qs).reverse := by
  have hfilter : ((qs.splitBy (· == ·)).map List.reverse).filter (·.contains r)
      = ((qs.splitBy (· == ·)).filter (·.contains r)).map List.reverse := by
    rw [List.filter_map]
    exact congrArg _ (List.filter_congr fun b _ => List.contains_reverse)
  rw [blocks, splitBy_reverse, List.filter_reverse, hfilter, List.map_reverse, List.map_map, blocks]
  exact congrArg List.reverse (List.map_congr_left fun b _ => List.length_reverse)

/-! ## 2. Reading block by block -/

/-- A block is one role over and over. -/
theorem exists_replicate {b : List Role} (hne : b ≠ []) (h : b.IsChain fun x y => x == y) :
    ∃ q k, b = List.replicate (k + 1) q := by
  induction b with
  | nil => exact absurd rfl hne
  | cons q b ih =>
    cases b with
    | nil => exact ⟨q, 0, rfl⟩
    | cons q' b =>
      obtain ⟨hqq, hrest⟩ := List.isChain_cons_cons.mp h
      obtain ⟨p, k, hk⟩ := ih (List.cons_ne_nil q' b) hrest
      obtain rfl : q = q' := eq_of_beq hqq
      obtain rfl : q = p := (List.cons.inj hk).1
      exact ⟨q, k + 1, by rw [hk, List.replicate_succ (n := k + 1)]⟩

theorem runs_replicate (r : Role) (n k : Nat) (qs : List Role) :
    runs r n (List.replicate k r ++ qs) = runs r (n + k) qs := by
  induction k generalizing n with
  | zero => rfl
  | succ k ih => rw [List.replicate_succ, List.cons_append, runs_same, ih, Nat.add_right_comm]; rfl

/-- Where no run is open, the opposite role is passed over. -/
theorem runs_replicate_opposite (r : Role) (k : Nat) (qs : List Role) :
    runs r 0 (List.replicate k r.opposite ++ qs) = runs r 0 qs := by
  induction k with
  | zero => rfl
  | succ k ih => rw [List.replicate_succ, List.cons_append, runs_opposite, if_pos rfl, ih]

/-- A run ends where the role does. -/
theorem runs_closed {r : Role} {qs : List Role} (h : qs.head? ≠ some r) (n : Nat) :
    runs r (n + 1) qs = (n + 1) :: runs r 0 qs := by
  cases qs with
  | nil => rfl
  | cons q qs =>
    have hq : q ≠ r := fun hq => h (congrArg some hq)
    rw [Role.eq_opposite_of_ne hq, runs_opposite, runs_opposite, if_pos rfl,
      if_neg (Nat.succ_ne_zero n)]

/-- Runs that are cut where the role changes are the pieces with that role. -/
theorem runs_flatten (r : Role) {bs : List (List Role)} (hnil : [] ∉ bs)
    (hchain : ∀ b ∈ bs, b.IsChain fun x y => x == y)
    (hcut : bs.IsChain fun b c => ∃ hb hc, (b.getLast hb == c.head hc) = false) :
    runs r 0 bs.flatten = (bs.filter (·.contains r)).map List.length := by
  induction bs with
  | nil => rfl
  | cons b bs ih =>
    have ih := ih (fun h => hnil (List.mem_cons_of_mem b h))
      (fun c hc => hchain c (List.mem_cons_of_mem b hc)) hcut.tail
    have hb : b ≠ [] := fun hb => hnil (hb ▸ List.mem_cons_self)
    obtain ⟨q, k, rfl⟩ := exists_replicate hb (hchain b List.mem_cons_self)
    have hnext : bs.flatten.head? ≠ some q := by
      cases bs with
      | nil => exact nofun
      | cons c bs =>
        obtain ⟨_, hc, hqc⟩ := (List.isChain_cons_cons.mp hcut).1
        obtain ⟨p, c, rfl⟩ := List.exists_cons_of_ne_nil hc
        rw [List.getLast_replicate, List.head_cons] at hqc
        intro hq
        rw [← Option.some.inj hq, BEq.rfl] at hqc
        cases hqc
    rw [List.flatten_cons, List.filter_cons]
    by_cases hq : q = r
    · subst hq
      rw [runs_replicate, Nat.zero_add, runs_closed hnext, ih, if_pos (by simp), List.map_cons,
        List.length_replicate]
    · have hnot : (List.replicate (k + 1) q).contains r = false := by
        simp [Ne.symm hq]
      rw [hnot, if_neg Bool.false_ne_true, ← ih, Role.eq_opposite_of_ne hq,
        runs_replicate_opposite]

/-- **Reading role by role finds the blocks.** -/
theorem runs_eq_blocks (r : Role) (qs : List Role) : runs r 0 qs = blocks r qs := by
  obtain ⟨hflat, hnil, hchain, hcut⟩ := List.splitBy_eq_iff.mp (rfl : qs.splitBy (· == ·) = _)
  calc runs r 0 qs = runs r 0 (qs.splitBy (· == ·)).flatten := by rw [← hflat]
    _ = blocks r qs := runs_flatten r hnil hchain hcut

/-- Together the runs have the role as often as it occurs. -/
theorem sum_runs_eq_count (r : Role) (n : Nat) (qs : List Role) :
    (runs r n qs).sum = n + qs.count r := by
  induction qs generalizing n with
  | nil =>
    rw [runs]
    split <;> simp_all
  | cons q qs ih =>
    by_cases hq : q = r
    · subst hq
      rw [runs_same, ih, List.count_cons_self]
      omega
    · rw [List.count_cons_of_ne hq, Role.eq_opposite_of_ne hq, runs_opposite]
      split
      · rename_i hn
        rw [ih, hn]
      · rw [List.sum_cons, ih, Nat.zero_add]

/-! ## 3. The report of a schedule -/

section Report

variable [BEq α] [Equality α] [PartialEquivBEq α] {ms : List (Match τ α)}

/-- **The report of a schedule is its blocks**, the last one first, and zeros. -/
theorem filter_lengths_eq_blocks (hself : ∀ m ∈ ms, equals m.home m.guest = false) (r : Role)
    (p : α) :
    (lengths r p ms).filter (0 < ·) = (blocks r (Schedule.roles p ms)).reverse := by
  rw [filter_lengths hself, runs_eq_blocks, blocks_reverse]

/-- Whoever is equal to himself has a role as often as there are matches in it. -/
theorem count_roles (hself : ∀ m ∈ ms, equals m.home m.guest = false) (r : Role) {p : α}
    (hp : equals p p = true) : (Schedule.roles p ms).count r = Tally.gamesAs r p ms := by
  rw [Schedule.roles, List.count_filterMap, Tally.gamesAs]
  refine List.countP_congr fun m hm => ?_
  rw [beq_iff_eq, Match.role_eq_some_iff (hself m hm), equals_eq_beq hp]

/-- Zeros add nothing. -/
theorem sum_filter_zero (ns : List Nat) : (ns.filter (0 < ·)).sum = ns.sum := by
  induction ns with
  | nil => rfl
  | cons n ns ih =>
    cases n with
    | zero => rw [List.filter_cons, if_neg (by simp), ih, List.sum_cons, Nat.zero_add]
    | succ n => rw [List.filter_cons, if_pos (by simp), List.sum_cons, List.sum_cons, ih]

/-- **All streaks together are all matches in the role.** -/
theorem sum_lengths_eq_gamesAs (hself : ∀ m ∈ ms, equals m.home m.guest = false) (r : Role)
    {p : α} (hp : equals p p = true) : (lengths r p ms).sum = Tally.gamesAs r p ms := by
  rw [← sum_filter_zero, filter_lengths hself, sum_runs_eq_count, Nat.zero_add, List.count_reverse,
    count_roles hself r hp]

omit [BEq α] [Equality α] [PartialEquivBEq α] in
/-- The greatest of some numbers is that of those that are not zero. -/
theorem foldl_max_filter (k : Nat) (ns : List Nat) :
    (ns.filter (0 < ·)).foldl max k = ns.foldl max k := by
  induction ns generalizing k with
  | nil => rfl
  | cons n ns ih =>
    cases n with
    | zero => rw [List.filter_cons, if_neg (by simp), ih, List.foldl_cons, Nat.max_zero]
    | succ n => rw [List.filter_cons, if_pos (by simp), List.foldl_cons, List.foldl_cons, ih]

/-- **The longest streak is the longest block**, and zero where there is no block. -/
theorem longest_eq_max_blocks (hself : ∀ m ∈ ms, equals m.home m.guest = false) (r : Role) (p : α) :
    longest r p ms = (blocks r (Schedule.roles p ms)).max?.getD 0 := by
  have hperm : (blocks r (Schedule.roles p ms)).reverse.foldl max 0
      = (blocks r (Schedule.roles p ms)).foldl max 0 := by
    rw [(List.reverse_perm _).foldl_op_eq]
  rw [longest, ← foldl_max_filter, filter_lengths_eq_blocks hself, hperm]
  cases blocks r (Schedule.roles p ms) with
  | nil => rfl
  | cons n ns => rw [List.foldl_cons, Nat.zero_max, List.max?_cons', Option.getD_some]

/-! ## 4. The current streak -/

/-- How many matches in a row the player has had in the role by now. -/
def running (r : Role) (p : α) (ms : List (Match τ α)) : Nat :=
  ((Schedule.roles p ms).reverse.takeWhile (· == r)).length

/-- A streak that is open is reported with all earlier matches in the role, up to the first in the
opposite one. -/
theorem head?_read_open (hself : ∀ m ∈ ms, equals m.home m.guest = false) (r : Role) (p : α)
    (n : Nat) :
    (read (some n) (ms.map (sight r p))).given.head?
      = some (n + ((Schedule.roles p ms).takeWhile (· == r)).length) := by
  induction ms generalizing n with
  | nil => rfl
  | cons m ms ih =>
    have ih := ih fun m hm => hself m (List.mem_cons_of_mem _ hm)
    rw [List.map_cons, sight_eq (hself m List.mem_cons_self), Schedule.roles, List.filterMap_cons]
    cases hrole : m.role p with
    | none =>
      simp only [read, reduceCtorEq, decide_false, Bool.false_eq_true, if_false]
      exact ih n
    | some q =>
      by_cases hq : q = r
      · subst hq
        have hopp : (some q = some q.opposite) = False :=
          eq_false fun h => q.opposite_ne (Option.some.inj h).symm
        simp only [read, decide_true, hopp, decide_false, if_true, Bool.false_eq_true, if_false]
        rw [ih, List.takeWhile_cons, if_pos (beq_self_eq_true q), List.length_cons, Schedule.roles]
        exact congrArg some (by omega)
      · obtain rfl := Role.eq_opposite_of_ne hq
        have hsame : (some r.opposite = some r) = False :=
          eq_false fun h => r.opposite_ne (Option.some.inj h)
        simp only [read, decide_true, hsame, decide_false, if_true, Bool.false_eq_true, if_false]
        rw [List.takeWhile_cons_of_neg (by simp [r.opposite_ne])]
        rfl

/-- **What is reported first**: how long the player has been in the role, if the last match of the
schedule has the player in it, and otherwise nothing. -/
theorem current_concat {m : Match τ α}
    (hself : ∀ n ∈ ms ++ [m], equals n.home n.guest = false) (r : Role) (p : α) :
    current r p (ms ++ [m]) = if m.role p = some r then running r p (ms ++ [m]) else 0 := by
  have hms : ∀ n ∈ ms.reverse, equals n.home n.guest = false := fun n hn =>
    hself n (List.mem_append_left _ (List.mem_reverse.mp hn))
  have hroles : Schedule.roles p ms.reverse = (Schedule.roles p ms).reverse :=
    List.filterMap_reverse
  rw [current, lengths, List.reverse_append, List.reverse_singleton, List.singleton_append,
    List.map_cons, sight_eq (hself m (List.mem_append_right _ (List.mem_singleton_self m)))]
  by_cases hrole : m.role p = some r
  · have hrun : running r p (ms ++ [m])
        = 1 + ((Schedule.roles p ms).reverse.takeWhile (· == r)).length := by
      rw [running, Schedule.roles, List.filterMap_append, List.reverse_append,
        List.filterMap_cons_some hrole]
      rw [List.filterMap_nil, List.reverse_singleton, List.singleton_append,
        List.takeWhile_cons, if_pos (beq_self_eq_true r), List.length_cons, Nat.add_comm]
      rfl
    rw [if_pos hrole, hrun, ← hroles, List.headD_eq_head?_getD]
    simp only [read, hrole, decide_true]
    rw [head?_read_open hms, Option.getD_some]
  · rw [if_neg hrole]
    simp only [read, hrole, decide_false]
    rfl

end Report

end Streak

/-! ## 5. Counts and blocks of a schedule in rows -/

namespace Tally

variable [BEq α]

/-- Players who are the same have the same matches. -/
theorem gamesAs_congr [PartialEquivBEq α] {p q : α} (h : (p == q) = true) (r : Role)
    (ms : List (Match τ α)) : gamesAs r p ms = gamesAs r q ms :=
  List.countP_congr fun m _ => by rw [BEq.congr_right h]

/-- **The tally of a player**: the matches in each role, none for somebody who does not play. -/
theorem find?_counts [EquivBEq α] (p : α) (ms : List (Match τ α)) :
    (((counts ms).find? (·.player == p)).map fun c => (c.home, c.guest)).getD (0, 0)
      = (gamesAs .home p ms, gamesAs .guest p ms) := by
  cases hfind : (counts ms).find? (·.player == p) with
  | some c =>
    obtain ⟨q, -, rfl⟩ := List.mem_map.mp (List.mem_of_find?_eq_some hfind)
    have hqp := List.find?_some hfind
    rw [Option.map_some, Option.getD_some, gamesAs_congr hqp, gamesAs_congr hqp]
  | none =>
    have hnone : ∀ r, gamesAs r p ms = 0 := by
      intro r
      refine List.countP_eq_zero.mpr fun m hm hrole => ?_
      -- whoever has a role is among the players, and these have counts
      have hany : (Schedule.players ms).any (· == p) = true := by
        rw [Schedule.players, any_beq_eraseDups]
        refine List.any_eq_true.mpr ⟨m.player r, List.mem_flatMap.mpr ⟨m, hm, ?_⟩, hrole⟩
        cases r with
        | home => exact List.mem_cons_self
        | guest => exact List.mem_cons_of_mem _ List.mem_cons_self
      obtain ⟨q, hq, hqp⟩ := List.any_eq_true.mp hany
      exact List.find?_eq_none.mp hfind _ (List.mem_map_of_mem hq) hqp
    rw [hnone, hnone]
    rfl

/-- Rows that are matches between keys are counted. -/
theorem countsOfRows_ofFixtures {ms : List Fixture}
    (hkey : ∀ m ∈ ms, m.home.isKey = true ∧ m.guest.isKey = true) :
    countsOfRows (ms.map Row.ofFixture) = .ok (counts ms) := by
  rw [countsOfRows, mapM_rows, mapM_counted hkey]
  rfl

end Tally

namespace Streak

/-- **The report on a player is the player's blocks.**  Of any schedule in which nobody plays
against himself, the lengths that are reported in a role are those of its blocks among the roles of
the player, the last block first, and zeros.  The longest streaks are the longest blocks.  For a
player who is equal to himself the lengths add up to the matches that the tally counts. -/
theorem report_blocks {ms : List Fixture} (hself : ∀ m ∈ ms, equals m.home m.guest = false)
    (p : Value) :
    (∀ r, ∃ ns, report r p (ms.map Row.ofFixture) = ⟨ns, false⟩ ∧
      ns.filter (0 < ·) = (blocks r (Schedule.roles p ms)).reverse ∧
      (equals p p = true → ns.sum = Tally.gamesAs r p ms)) ∧
    longestOfRows p (ms.map Row.ofFixture) =
      .ok ((blocks .home (Schedule.roles p ms)).max?.getD 0,
        (blocks .guest (Schedule.roles p ms)).max?.getD 0) ∧
    ((∀ m ∈ ms, m.home.isKey = true ∧ m.guest.isKey = true) →
      ∃ cs, Tally.countsOfRows (ms.map Row.ofFixture) = .ok cs ∧
        ((cs.find? (·.player == p)).map fun c => (c.home, c.guest)).getD (0, 0)
          = (Tally.gamesAs .home p ms, Tally.gamesAs .guest p ms)) := by
  refine ⟨fun r => ⟨lengths r p ms, report_ofFixtures r p ms, filter_lengths_eq_blocks hself r p,
    sum_lengths_eq_gamesAs hself r⟩, ?_, fun hkey => ?_⟩
  · have hlongest : ∀ r, (report r p (ms.map Row.ofFixture)).longest
        = .ok ((blocks r (Schedule.roles p ms)).max?.getD 0) := by
      intro r
      rw [report_ofFixtures, ← longest_eq_max_blocks hself]
      rfl
    rw [longestOfRows, hlongest, hlongest]
    rfl
  · exact ⟨Tally.counts ms, Tally.countsOfRows_ofFixtures hkey, Tally.find?_counts p ms⟩

/-- Ann plays at home, twice as guest, and at home again; others play in between. -/
theorem report_blocks_ann :
    (∃ ns, report .home (.text "Ann") ([⟨.int 1, .text "Ann", .int 2⟩,
          ⟨.int 2, .int 2, .text "Ann"⟩, ⟨.int 2, .int 3, .int 4⟩, ⟨.int 3, .int 4, .text "Ann"⟩,
          ⟨.int 4, .text "Ann", .int 3⟩, ⟨.int 4, .int 4, .int 2⟩].map Row.ofFixture)
            = ⟨ns, false⟩ ∧
        ns.filter (0 < ·) = [1, 1] ∧ ns.sum = 2) ∧
      longestOfRows (.text "Ann") ([⟨.int 1, .text "Ann", .int 2⟩, ⟨.int 2, .int 2, .text "Ann"⟩,
          ⟨.int 2, .int 3, .int 4⟩, ⟨.int 3, .int 4, .text "Ann"⟩, ⟨.int 4, .text "Ann", .int 3⟩,
          ⟨.int 4, .int 4, .int 2⟩].map Row.ofFixture) = .ok (1, 2) ∧
      ∃ cs, Tally.countsOfRows ([⟨.int 1, .text "Ann", .int 2⟩, ⟨.int 2, .int 2, .text "Ann"⟩,
          ⟨.int 2, .int 3, .int 4⟩, ⟨.int 3, .int 4, .text "Ann"⟩, ⟨.int 4, .text "Ann", .int 3⟩,
          ⟨.int 4, .int 4, .int 2⟩].map Row.ofFixture) = .ok cs ∧
        ((cs.find? (·.player == .text "Ann")).map fun c => (c.home, c.guest)).getD (0, 0)
          = (2, 2) := by
  obtain ⟨hreport, hlongest, hcounts⟩ := @report_blocks [⟨.int 1, .text "Ann", .int 2⟩,
    ⟨.int 2, .int 2, .text "Ann"⟩, ⟨.int 2, .int 3, .int 4⟩, ⟨.int 3, .int 4, .text "Ann"⟩,
    ⟨.int 4, .text "Ann", .int 3⟩, ⟨.int 4, .int 4, .int 2⟩] (by decide) (.text "Ann")
  obtain ⟨ns, hns, hblocks, hsum⟩ := hreport .home
  exact ⟨⟨ns, hns, hblocks, hsum rfl⟩, hlongest, hcounts (by decide)⟩

end Streak
end Matchday
