/-
# Streaks and breaks

All that matters for the streaks of a player are the roles that he has, one match after the other
(`Schedule.roles`).  Matches of others do not count: read backwards, nothing but zeros is reported
for them.  Without these zeros the lengths reported are those of the runs of a role among the roles
(`filter_lengths`).  Players are asked for equality, so whoever is not equal to himself has no role.

A role that is the same as the one before is a break.  A run of `k` matches has `k - 1` of them, so
over both roles the lengths tell how many there are (`sum_lengths`).  If no streak is longer than
two matches, there are as many breaks as streaks of two (`twos_eq_breaks`).  And no streak is longer
if between any three matches in a role there is one in the opposite role (`lengths_le_two`).
-/
import Matchday.Proofs.Counting
import Matchday.Proofs.Renaming

namespace Matchday

variable {τ τ' α β : Type}

/-! ## 1. Roles -/

/-- The opposite of the opposite role is the role. -/
theorem Role.opposite_opposite (r : Role) : r.opposite.opposite = r := by cases r <;> rfl

theorem Role.opposite_ne (r : Role) : r.opposite ≠ r := by cases r <;> exact nofun

/-- There are no other roles. -/
theorem Role.eq_opposite_of_ne {q r : Role} (h : q ≠ r) : q = r.opposite := by
  cases q <;> cases r <;> first | rfl | exact absurd rfl h

/-- The role of a player in a match, if there is one. -/
def Match.role [BEq α] [Equality α] (p : α) (m : Match τ α) : Option Role :=
  if equals m.home p then some .home else if equals m.guest p then some .guest else none

/-- The roles of a player, one match after the other. -/
def Schedule.roles [BEq α] [Equality α] (p : α) (ms : List (Match τ α)) : List Role :=
  ms.filterMap (·.role p)

/-- A player of a match between two has one role. -/
theorem Match.role_eq_some_iff [BEq α] [Equality α] [PartialEquivBEq α] {m : Match τ α}
    (hself : equals m.home m.guest = false) {p : α} {r : Role} :
    m.role p = some r ↔ equals (m.player r) p = true := by
  unfold Match.role
  cases r with
  | home =>
    cases hhome : equals m.home p with
    | true => simp [Match.player, hhome]
    | false =>
      simp only [Match.player, hhome, Bool.false_eq_true, if_false, iff_false]
      split <;> exact nofun
  | guest =>
    cases hhome : equals m.home p with
    | true =>
      have hguest : equals m.guest p = false := by
        rw [← equals_congr_right (beq_of_equals hhome), equals_comm, hself]
      simp [Match.player, hguest]
    | false => simp [Match.player]

/-- A renamed player has the roles of the player, if the same players as before are equal to him. -/
theorem Schedule.roles_map [BEq α] [Equality α] [BEq β] [Equality β] {f : τ → τ'} {g : α → β}
    {P : α → Prop} {ms : List (Match τ α)} {p : α} (hg : ∀ x, P x → equals (g x) (g p) = equals x p)
    (hP : ∀ m ∈ ms, P m.home ∧ P m.guest) :
    Schedule.roles (g p) (ms.map (·.map f g)) = Schedule.roles p ms := by
  rw [Schedule.roles, List.filterMap_map, Schedule.roles]
  refine List.filterMap_congr fun m hm => ?_
  obtain ⟨hhome, hguest⟩ := hP m hm
  rw [Function.comp_apply, Match.role, Match.map, hg _ hhome, hg _ hguest, Match.role]

/-- Players who are not equal to themselves are never found to have a role. -/
theorem Schedule.roles_eq_nil [BEq α] [Equality α] [PartialEquivBEq α] {p : α}
    (hp : equals p p = false) (ms : List (Match τ α)) : Schedule.roles p ms = [] := by
  refine List.filterMap_eq_nil_iff.mpr fun m _ => ?_
  have hnot : ∀ q, equals q p = false := fun q =>
    Bool.eq_false_iff.mpr fun h => Bool.eq_false_iff.mp hp (equals_self_of_equals h)
  rw [Match.role, hnot, hnot]
  rfl

namespace Streak

/-! ## 2. Runs of a role -/

/-- The lengths of the runs of a role in a list of roles.  The number is the length so far of the
run that is open. -/
def runs (r : Role) : Nat → List Role → List Nat
  | n, [] => if n = 0 then [] else [n]
  | n, q :: qs =>
    if q = r then runs r (n + 1) qs else if n = 0 then runs r 0 qs else n :: runs r 0 qs

theorem runs_same (r : Role) (n : Nat) (qs : List Role) :
    runs r n (r :: qs) = runs r (n + 1) qs := by rw [runs, if_pos rfl]

theorem runs_opposite (r : Role) (n : Nat) (qs : List Role) :
    runs r n (r.opposite :: qs) = if n = 0 then runs r 0 qs else n :: runs r 0 qs := by
  rw [runs, if_neg r.opposite_ne]

section Lengths

variable [BEq α] [Equality α] [PartialEquivBEq α] {p : α} {ms : List (Match τ α)}

/-- What a match tells about a player is his role in it. -/
theorem sight_eq {m : Match τ α} (hself : equals m.home m.guest = false) (r : Role) (p : α) :
    sight r p m
      = ⟨some (decide (m.role p = some r)), some (decide (m.role p = some r.opposite))⟩ := by
  have hheld : ∀ q, equals (m.player q) p = decide (m.role p = some q) := by
    intro q
    rw [Bool.eq_iff_iff, decide_eq_true_eq, Match.role_eq_some_iff hself]
  rw [sight, hheld, hheld]

/-- **Reading matches is reading roles**, up to the zeros that are reported on the way. -/
theorem filter_read (hself : ∀ m ∈ ms, equals m.home m.guest = false) (r : Role) (p : α) :
    (read none (ms.map (sight r p))).given.filter (0 < ·) = runs r 0 (Schedule.roles p ms) ∧
      ∀ n, (read (some (n + 1)) (ms.map (sight r p))).given.filter (0 < ·)
        = runs r (n + 1) (Schedule.roles p ms) := by
  induction ms with
  | nil => exact ⟨rfl, fun n => rfl⟩
  | cons m ms ih =>
    obtain ⟨ihnone, ihsome⟩ := ih fun m hm => hself m (List.mem_cons_of_mem _ hm)
    rw [List.map_cons, sight_eq (hself m List.mem_cons_self), Schedule.roles, List.filterMap_cons]
    cases hrole : m.role p with
    | none =>
      simp only [read, reduceCtorEq, decide_false, Report.cons]
      exact ⟨ihnone, ihsome⟩
    | some q =>
      by_cases hq : q = r
      · subst hq
        have hopp : (some q = some q.opposite) = False :=
          eq_false fun h => q.opposite_ne (Option.some.inj h).symm
        simp only [read, decide_true, hopp, decide_false, if_true, Bool.false_eq_true, if_false,
          runs_same]
        exact ⟨ihsome 0, fun n => ihsome (n + 1)⟩
      · obtain rfl := Role.eq_opposite_of_ne hq
        have hsame : (some r.opposite = some r) = False :=
          eq_false fun h => r.opposite_ne (Option.some.inj h)
        simp only [read, decide_true, hsame, decide_false, if_true, Bool.false_eq_true, if_false,
          runs_opposite, Report.cons]
        refine ⟨ihnone, fun n => ?_⟩
        rw [if_neg (Nat.succ_ne_zero n), List.filter_cons, if_pos (by simp), ihnone]
        rfl

/-- **The streaks of a player are the runs among his roles**, the last ones first. -/
theorem filter_lengths (hself : ∀ m ∈ ms, equals m.home m.guest = false) (r : Role) (p : α) :
    (lengths r p ms).filter (0 < ·) = runs r 0 (Schedule.roles p ms).reverse := by
  have hreverse : Schedule.roles p ms.reverse = (Schedule.roles p ms).reverse :=
    List.filterMap_reverse
  rw [← hreverse, ← (filter_read (fun m hm => hself m (List.mem_reverse.mp hm)) r p).1, lengths]

/-- Players who are not equal to themselves have no streak. -/
theorem eq_zero_of_mem_lengths (hself : ∀ m ∈ ms, equals m.home m.guest = false)
    (hp : equals p p = false) {r : Role} {k : Nat} (hk : k ∈ lengths r p ms) : k = 0 := by
  have hnone := filter_lengths hself r p
  rw [Schedule.roles_eq_nil hp] at hnone
  have hzero := List.filter_eq_nil_iff.mp hnone k hk
  simpa using hzero

end Lengths

/-! ## 3. Breaks -/

/-- How many roles are the same as the one before. -/
def breaks : List Role → Nat
  | q :: r :: rs => (if q = r then 1 else 0) + breaks (r :: rs)
  | _ => 0

theorem breaks_cons (q : Role) (rs : List Role) :
    breaks (q :: rs) = (if rs.head? = some q then 1 else 0) + breaks rs := by
  cases rs with
  | nil => rfl
  | cons r rs =>
    rw [breaks, List.head?_cons]
    simp only [Option.some.injEq, eq_comm]

theorem breaks_concat (rs : List Role) (q : Role) :
    breaks (rs ++ [q]) = breaks rs + if rs.getLast? = some q then 1 else 0 := by
  induction rs with
  | nil => rfl
  | cons r rs ih =>
    rw [List.cons_append, breaks_cons, ih, breaks_cons]
    cases rs with
    | nil => simp only [List.nil_append, List.head?_cons, List.head?_nil, List.getLast?_nil,
        List.getLast?_singleton, Option.some.injEq, eq_comm, reduceCtorEq, if_false, breaks,
        Nat.add_zero, Nat.zero_add]
    | cons r' rs =>
      rw [List.cons_append, List.head?_cons, List.head?_cons, List.getLast?_cons_cons,
        Nat.add_assoc]

/-- **Breaks are the same read backwards.** -/
theorem breaks_reverse (rs : List Role) : breaks rs.reverse = breaks rs := by
  induction rs with
  | nil => rfl
  | cons q rs ih =>
    rw [List.reverse_cons, breaks_concat, ih, breaks_cons, List.getLast?_reverse, Nat.add_comm]

/-- The breaks of roles that are given turn by turn. -/
theorem breaks_map_range' (x : Nat → Role) (s n : Nat) :
    breaks ((List.range' s (n + 1)).map x)
      = (List.range' s n).countP fun t => decide (x t = x (t + 1)) := by
  induction n generalizing s with
  | zero => rfl
  | succ n ih =>
    rw [List.range'_succ, List.range'_succ, List.map_cons, List.map_cons, breaks, ← List.map_cons,
      ← List.range'_succ, ih, List.range'_succ, List.countP_cons, Nat.add_comm]
    simp only [decide_eq_true_eq]

/-- A run is that many breaks longer than one. -/
theorem sum_runs_cons (q : Role) (n : Nat) (rs : List Role) :
    ((runs q (n + 1) rs).map (· - 1)).sum + ((runs q.opposite 0 rs).map (· - 1)).sum
      = n + breaks (q :: rs) := by
  induction rs generalizing q n with
  | nil => simp [runs, breaks]
  | cons r rs ih =>
    by_cases hr : r = q
    · subst hr
      have hopp := runs_opposite r.opposite 0 rs
      rw [Role.opposite_opposite, if_pos rfl] at hopp
      rw [runs_same, hopp, ih r (n + 1), breaks, if_pos rfl]
      omega
    · obtain rfl := Role.eq_opposite_of_ne hr
      have ih := ih q.opposite 0
      rw [Role.opposite_opposite] at ih
      rw [runs_opposite, runs_same, if_neg (Nat.succ_ne_zero n), List.map_cons, List.sum_cons,
        breaks, if_neg fun h => hr h.symm]
      omega

/-- Over both roles the runs have all the breaks. -/
theorem sum_runs (rs : List Role) :
    ((runs .home 0 rs).map (· - 1)).sum + ((runs .guest 0 rs).map (· - 1)).sum = breaks rs := by
  cases rs with
  | nil => rfl
  | cons q rs =>
    have hopp := runs_opposite q.opposite 0 rs
    rw [Role.opposite_opposite, if_pos rfl] at hopp
    have hsum := sum_runs_cons q 0 rs
    rw [← hopp, ← runs_same, Nat.zero_add] at hsum
    cases q with
    | home => exact hsum
    | guest => exact (Nat.add_comm _ _).trans hsum

section Twos

variable [BEq α] [Equality α] [PartialEquivBEq α] {p : α} {ms : List (Match τ α)}

/-- How many streaks of exactly two matches a player has, at home and as guest. -/
def twos (p : α) (ms : List (Match τ α)) : Nat :=
  (lengths .home p ms).count 2 + (lengths .guest p ms).count 2

/-- Zeros are no breaks. -/
theorem sum_filter_pos (ns : List Nat) :
    ((ns.filter (0 < ·)).map (· - 1)).sum = (ns.map (· - 1)).sum := by
  induction ns with
  | nil => rfl
  | cons n ns ih =>
    cases n with
    | zero =>
      rw [List.filter_cons, if_neg (by simp), ih, List.map_cons, List.sum_cons, Nat.zero_add]
    | succ n =>
      rw [List.filter_cons, if_pos (by simp), List.map_cons, List.map_cons, List.sum_cons,
        List.sum_cons, ih]

/-- **The streaks of a player tell his breaks**: each has one less than it has matches. -/
theorem sum_lengths (hself : ∀ m ∈ ms, equals m.home m.guest = false) (p : α) :
    ((lengths .home p ms).map (· - 1)).sum + ((lengths .guest p ms).map (· - 1)).sum
      = breaks (Schedule.roles p ms) := by
  rw [← sum_filter_pos, ← sum_filter_pos (lengths .guest p ms), filter_lengths hself,
    filter_lengths hself, sum_runs, breaks_reverse]

/-- **Breaks are streaks of two**, if no streak is longer. -/
theorem twos_eq_breaks (hself : ∀ m ∈ ms, equals m.home m.guest = false)
    (h2 : ∀ r, ∀ n ∈ lengths r p ms, n ≤ 2) : twos p ms = breaks (Schedule.roles p ms) := by
  have hcount : ∀ ns : List Nat, (∀ n ∈ ns, n ≤ 2) → (ns.map (· - 1)).sum = ns.count 2 := by
    intro ns hns
    rw [List.count, ← sum_map_ite_eq_countP]
    refine sum_map_congr fun n hn => ?_
    have hle := hns n hn
    rcases Nat.lt_or_eq_of_le hle with hlt | rfl
    · rw [if_neg (by simp only [beq_iff_eq]; omega)]
      omega
    · rfl
  rw [← sum_lengths hself, hcount _ (h2 .home), hcount _ (h2 .guest), twos]

end Twos

/-! ## 4. No streak of three -/

section NoThree

variable {x : Nat → Option Role} {r : Role} {first count : Nat}

/-- No match in the opposite role from turn `low` to before turn `high`. -/
def Clear (x : Nat → Option Role) (r : Role) (low high : Nat) : Prop :=
  ∀ t, low ≤ t → t < high → x t ≠ some r.opposite

theorem Clear.earlier {low high : Nat} (h : Clear x r (low + 1) high)
    (hlow : x low ≠ some r.opposite) : Clear x r low high := by
  intro t ht hth
  rcases Nat.eq_or_lt_of_le ht with rfl | ht
  · exact hlow
  · exact h t ht hth

/-- The open run of `n` matches, none of them before turn `low`: no more than two, and from `low` on
none in the opposite role before the last of them. -/
inductive Open (x : Nat → Option Role) (r : Role) (low high : Nat) : Nat → Prop where
  | empty : Open x r low high 0
  | single {c : Nat} : low ≤ c → c < high → x c = some r → Clear x r low c → Open x r low high 1
  | double {b c : Nat} : low ≤ b → b < c → c < high → x b = some r → x c = some r →
    Clear x r low c → Open x r low high 2

theorem Open.le_two {low high n : Nat} (h : Open x r low high n) : n ≤ 2 := by cases h <;> omega

/-- A turn without a match of the player leaves the run open. -/
theorem Open.earlier {low high n : Nat} (h : Open x r (low + 1) high n) (hlow : x low = none) :
    Open x r low high n := by
  have hlow : x low ≠ some r.opposite := by
    rw [hlow]
    exact nofun
  cases h with
  | empty => exact .empty
  | single hc hch hxc hclear => exact .single (Nat.le_of_succ_le hc) hch hxc (hclear.earlier hlow)
  | double hb hbc hch hxb hxc hclear =>
    exact .double (Nat.le_of_succ_le hb) hbc hch hxb hxc (hclear.earlier hlow)

/-- **Runs of roles that are given turn by turn are no longer than two**, if between any three turns
in a role there is one in the opposite role. -/
theorem runs_le_two
    (hx : ∀ a b c, first ≤ a → a < b → b < c → c < first + count → x a = some r → x b = some r →
      x c = some r → ∃ t, a < t ∧ t < c ∧ x t = some r.opposite) :
    ∀ n ∈ runs r 0 ((List.range' first count).filterMap x).reverse, n ≤ 2 := by
  -- downwards from the last turn, with the run that is open there
  have hopen : ∀ k ≤ count, ∀ n, Open x r (first + k) (first + count) n →
      ∀ i ∈ runs r n ((List.range' first k).filterMap x).reverse, i ≤ 2 := by
    intro k
    induction k with
    | zero =>
      intro _ n hn i hi
      have hend : i ∈ runs r n [] := hi
      rw [runs] at hend
      split at hend
      · exact absurd hend List.not_mem_nil
      · rw [List.mem_singleton.mp hend]
        exact hn.le_two
    | succ k ih =>
      intro hk n hn
      have ih := ih (Nat.le_of_succ_le hk)
      have hstep : ((List.range' first (k + 1)).filterMap x).reverse
          = (x (first + k)).toList ++ ((List.range' first k).filterMap x).reverse := by
        rw [List.range'_concat, Nat.one_mul, List.filterMap_append, List.reverse_append]
        cases hxk : x (first + k) <;> simp [hxk]
      rw [hstep]
      cases hxk : x (first + k) with
      | none => exact ih n (hn.earlier hxk)
      | some q =>
        rw [Option.toList_some, List.singleton_append]
        by_cases hq : q = r
        · subst hq
          have hsame : x (first + k) ≠ some q.opposite := by
            rw [hxk]
            exact fun h => q.opposite_ne (Option.some.inj h).symm
          rw [runs_same]
          cases hn with
          | empty =>
            refine ih 1 (.single (Nat.le_refl _) (by omega) hxk fun t ht ht' => ?_)
            exact absurd ht' (Nat.not_lt.mpr ht)
          | single hc hch hxc hclear =>
            exact ih 2 (.double (Nat.le_refl _) hc hch hxk hxc (hclear.earlier hsame))
          | double hb hbc hch hxb hxc hclear =>
            -- a third one, with nothing in the opposite role in between
            obtain ⟨t, hkt, htc, hxt⟩ := hx _ _ _ (Nat.le_add_right first k) hb hbc hch hxk hxb hxc
            exact absurd hxt (hclear t hkt htc)
        · obtain rfl := Role.eq_opposite_of_ne hq
          rw [runs_opposite]
          split
          · exact ih 0 .empty
          · intro i hi
            rcases List.mem_cons.mp hi with rfl | hi
            · exact hn.le_two
            · exact ih 0 .empty i hi
  exact hopen count (Nat.le_refl _) 0 .empty

/-- **No streak of three.**  Streaks are no longer than two, if the roles of the player are given
turn by turn and between any three turns in a role there is one in the opposite role. -/
theorem lengths_le_two [BEq α] [Equality α] [PartialEquivBEq α] {p : α} {ms : List (Match τ α)}
    (hself : ∀ m ∈ ms, equals m.home m.guest = false)
    (hroles : Schedule.roles p ms = (List.range' first count).filterMap x)
    (hx : ∀ a b c, first ≤ a → a < b → b < c → c < first + count → x a = some r → x b = some r →
      x c = some r → ∃ t, a < t ∧ t < c ∧ x t = some r.opposite) :
    ∀ n ∈ lengths r p ms, n ≤ 2 := by
  intro n hn
  rcases Nat.eq_zero_or_pos n with rfl | hpos
  · exact Nat.zero_le 2
  · have hrun : n ∈ (lengths r p ms).filter (0 < ·) :=
      List.mem_filter.mpr ⟨hn, decide_eq_true hpos⟩
    rw [filter_lengths hself, hroles] at hrun
    exact runs_le_two hx n hrun

end NoThree

/-- The longest streak is no longer than all of them. -/
theorem longest_le [BEq α] [Equality α] {r : Role} {p : α} {ms : List (Match τ α)} {k : Nat}
    (h : ∀ n ∈ lengths r p ms, n ≤ k) : longest r p ms ≤ k :=
  List.foldlRecOn (motive := (· ≤ k)) _ max (Nat.zero_le k) fun _ hmax n hn =>
    Nat.max_le.mpr ⟨hmax, h n hn⟩

end Streak
end Matchday
