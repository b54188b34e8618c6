/-
# Reading a leg turn by turn

A leg is a list of pairings in playing order, and whoever reads it goes by its turns.  Where these
are whole numbers nothing gets lost that way, however they lie in the leg: `ReadByTurn` says that the
turns are listed in strictly ascending order, that the pairings of one turn after the other are the
stable sort of the leg by turn, and that this is also how the leg is written.

What is written is a list of lines, and every line is a heading or a pairing (`Line`).  A heading
names its turn and a pairing its two players and its referee, in so many words (`Line.text`), where
every value reads as `Value.inWords` says.  Going through the lines from above, each pairing belongs
to the last heading before it (`entries`).  Nothing but its turn matters for the place of a pairing,
so a leg can still be read that way after pairings were swapped in it, and after some with whole
turns were added (`isNumbered_run`).
-/
import Matchday.Leg.Session
import Matchday.Proofs.Keys
import Matchday.Proofs.Runs
import Matchday.Proofs.Sorting

namespace Matchday

/-- Whole numbers serve as keys. -/
theorem Value.isKey_of_isWhole {v : Value} (h : v.IsWhole) : v.isKey = true := by
  cases v with
  | bool | int | rule | half => rfl
  | _ => cases h

/-- The number of the turn of a pairing. -/
def Pairing.number (c : Pairing) : Int := c.turn.numeral

namespace Leg

variable {leg : Leg} {ts : List Value}

/-! ## 1. The turns -/

/-- All turns of the leg are whole numbers. -/
def IsNumbered (leg : Leg) : Prop := ∀ c ∈ leg, c.turn.IsWhole

/-- **The turns of a leg**: those of its pairings, strictly ascending. -/
structure Lists (leg : Leg) (ts : List Value) : Prop where
  ascending : Value.Ascending ts
  /-- What is listed is the turn of a pairing. -/
  mem : ∀ t ∈ ts, t ∈ leg.map (·.turn)
  /-- The turn of every pairing is listed, perhaps in the form of an equal one. -/
  all : ∀ c ∈ leg, ∃ t ∈ ts, (t == c.turn) = true

theorem Lists.isWhole (h : Lists leg ts) (hleg : leg.IsNumbered) : ∀ t ∈ ts, t.IsWhole := by
  intro t ht
  obtain ⟨c, hc, rfl⟩ := List.mem_map.mp (h.mem t ht)
  exact hleg c hc

/-- **A numbered leg has its turns listed.** -/
theorem exists_turns (hleg : leg.IsNumbered) : ∃ ts, turns leg = .ok ts ∧ Lists leg ts := by
  have hkeys : leg.mapM (·.turn.asKey) = .ok (leg.map fun _ => ()) := mapM_eq_ok fun c hc =>
    Value.asKey_of_isKey (Value.isKey_of_isWhole (hleg c hc))
  have hsub := eraseDups_sublist (leg.map (·.turn))
  have hwhole : ∀ t ∈ (leg.map (·.turn)).eraseDups, t.IsWhole := by
    intro t ht
    obtain ⟨c, hc, rfl⟩ := List.mem_map.mp (hsub.subset ht)
    exact hleg c hc
  obtain ⟨ts, hts, hperm, hasc⟩ := Value.exists_sort hwhole (allDifferent_eraseDups _)
  refine ⟨ts, ?_, hasc, fun t ht => hsub.subset (hperm.mem_iff.mp ht), fun c hc => ?_⟩
  · rw [turns, hkeys, ok_bind, hts]
    rfl
  · have hany : (leg.map (·.turn)).eraseDups.any (· == c.turn) = true := by
      rw [any_beq_eraseDups]
      exact List.any_eq_true.mpr ⟨c.turn, List.mem_map_of_mem hc, BEq.rfl⟩
    obtain ⟨t, ht, htc⟩ := List.any_eq_true.mp hany
    exact ⟨t, hperm.mem_iff.mpr ht, htc⟩

/-! ## 2. The pairings, turn by turn -/

/-- The pairings of a turn are those with its number. -/
theorem ofTurn_eq_ofKey (hleg : leg.IsNumbered) {t : Value} (ht : t.IsWhole) :
    ofTurn leg t = ofKey Pairing.number t.numeral leg :=
  List.filter_congr fun c hc =>
    (equals_eq_beq (Value.equals_self_of_isWhole ht) c.turn).trans
      (Value.beq_eq_numeral (hleg c hc) ht)

/-- **Turn by turn, the pairings are the stable sort of the leg.** -/
theorem flatMap_ofTurn (hleg : leg.IsNumbered) (h : Lists leg ts) :
    ts.flatMap (ofTurn leg) = stableSort Pairing.number leg := by
  have hwhole := h.isWhole hleg
  have hnumerals : (ts.map Value.numeral).Pairwise (· < ·) := List.pairwise_map.mpr h.ascending
  have hall : ∀ c ∈ leg, c.number ∈ ts.map Value.numeral := by
    intro c hc
    obtain ⟨t, ht, htc⟩ := h.all c hc
    rw [Value.beq_eq_numeral (hwhole t ht) (hleg c hc), beq_iff_eq] at htc
    exact List.mem_map.mpr ⟨t, ht, htc⟩
  calc ts.flatMap (ofTurn leg)
      = ts.flatMap fun t => ofKey Pairing.number t.numeral leg :=
        List.flatMap_congr fun t ht => ofTurn_eq_ofKey hleg (hwhole t ht)
    _ = (ts.map Value.numeral).flatMap fun k => ofKey Pairing.number k leg :=
        by rw [List.flatMap_map]
    _ = stableSort Pairing.number leg := flatMap_ofKey_eq_stableSort hnumerals hall

/-! ## 3. The text -/

end Leg

/-- **How a value reads in a sentence**: a text as it stands, a whole number and the member of a
choice in digits, truth values, nothing and the bye by their names.  Whatever else there is, is
quoted. -/
def Value.inWords : Value → String
  | .text s => s
  | .int n => toString n
  | .rule r => toString r.number
  | .half h => toString h.number
  | .bool true => "True"
  | .bool false => "False"
  | .none => "None"
  | .bye => "BYE"
  | v => v.quoted

theorem Text.whole_eq (n : Int) : whole n = toString n := by
  cases n with
  | ofNat n => rfl
  | negSucc n =>
    rw [whole, if_pos (Int.negSucc_lt_zero n)]
    rfl

/-- A value is written as it reads. -/
theorem Value.plain_eq (v : Value) : v.plain = v.inWords := by
  cases v with
  | int n => exact Text.whole_eq n
  | bool b => cases b <;> rfl
  | _ => rfl

namespace Leg

/-- A line of a leg that is written. -/
inductive Line where
  | heading (turn : Value)
  | entry (pairing : Pairing)

/-- **The text of a line.**  A heading names the turn, and a pairing the one at home, the guest and
the referee, with a dash where there is none. -/
def Line.text : Line → String
  | .heading turn => "Turn " ++ turn.inWords ++ ":"
  | .entry ⟨_, home, guest, .none⟩ => "  " ++ home.inWords ++ " : " ++ guest.inWords ++ " / -"
  | .entry ⟨_, home, guest, referee⟩ =>
    "  " ++ home.inWords ++ " : " ++ guest.inWords ++ " / " ++ referee.inWords

theorem Line.text_heading (t : Value) : (heading t).text = "Turn " ++ t.plain ++ ":" := by
  rw [Line.text, Value.plain_eq]

theorem Line.text_entry (c : Pairing) : (entry c).text = "  " ++ c.text := by
  obtain ⟨turn, home, guest, referee⟩ := c
  have hdash : " / -" = " / " ++ "-" := rfl
  cases referee <;>
    simp only [Line.text, Pairing.text, Pairing.refereeText, Value.plain_eq, String.append_assoc,
      hdash]

/-- The pairings that some lines show, each with the last heading above it. -/
def entries : Option Value → List Line → List (Option Value × Pairing)
  | _, [] => []
  | _, .heading t :: lines => entries (some t) lines
  | above, .entry c :: lines => (above, c) :: entries above lines

/-- The headings of some lines. -/
def headings (lines : List Line) : List Value :=
  lines.filterMap fun
    | .heading t => some t
    | .entry _ => none

/-- The lines of some turns: each is a heading, with its pairings below. -/
def linesOf (leg : Leg) (ts : List Value) : List Line :=
  ts.flatMap fun t => .heading t :: (ofTurn leg t).map .entry

/-- Where no heading comes in between, pairings belong to the one above them all. -/
theorem entries_append (above : Option Value) (cs : List Pairing) (lines : List Line) :
    entries above (cs.map .entry ++ lines) = cs.map (above, ·) ++ entries above lines := by
  induction cs with
  | nil => rfl
  | cons c cs ih => exact congrArg ((above, c) :: ·) ih

/-- **Under every heading stand the pairings of its turn**, in their order. -/
theorem entries_linesOf (above : Option Value) (leg : Leg) (ts : List Value) :
    entries above (linesOf leg ts) = ts.flatMap fun t => (ofTurn leg t).map (some t, ·) := by
  induction ts generalizing above with
  | nil => rfl
  | cons t ts ih =>
    rw [linesOf, List.flatMap_cons, List.flatMap_cons, List.cons_append, entries, entries_append]
    exact congrArg _ (ih (some t))

theorem headings_linesOf (leg : Leg) (ts : List Value) : headings (linesOf leg ts) = ts := by
  induction ts with
  | nil => rfl
  | cons t ts ih =>
    have hentries : headings ((ofTurn leg t).map .entry) = [] := by
      rw [headings, List.filterMap_map]
      exact List.filterMap_eq_nil_iff.mpr fun c _ => rfl
    calc headings (linesOf leg (t :: ts))
        = t :: (headings ((ofTurn leg t).map .entry) ++ headings (linesOf leg ts)) := by
          rw [linesOf, List.flatMap_cons, List.cons_append, headings, List.filterMap_cons,
            List.filterMap_append]
          rfl
      _ = t :: ts := by rw [hentries, ih, List.nil_append]

/-- **A leg is written line by line.** -/
theorem text_eq_ok (h : turns leg = .ok ts) :
    text leg = .ok (String.intercalate "\n" ((linesOf leg ts).map Line.text)) := by
  have hlines : ts.flatMap (turnLines leg) = (linesOf leg ts).map Line.text := by
    rw [linesOf, List.map_flatMap]
    refine List.flatMap_congr fun t _ => ?_
    rw [turnLines, List.map_cons, List.map_map, Line.text_heading]
    exact congrArg _ (List.map_congr_left fun c _ => (Line.text_entry c).symm)
  rw [text, h, ← hlines]
  rfl

/-! ## 4. Reading -/

/-- **What the lines of a leg show**: a heading for each turn, and under it the pairings of the turn
as they stand in the leg.  All pairings are shown, and none is shown twice. -/
structure Shows (leg : Leg) (ts : List Value) (lines : List Line) : Prop where
  headings : headings lines = ts
  entries : entries none lines = ts.flatMap fun t => (leg.filter (equals ·.turn t)).map (some t, ·)
  once : ((Leg.entries none lines).map (·.2)).Perm leg

/-- **The leg is read turn by turn.**  Its turns are listed, their pairings put one turn after the
other are the stable sort of the leg by turn, and that is how the leg is written. -/
structure ReadByTurn (leg : Leg) (ts : List Value) : Prop where
  turns : turns leg = .ok ts
  lists : Lists leg ts
  sorted : ts.flatMap (ofTurn leg) = stableSort Pairing.number leg
  written : ∃ lines, text leg = .ok (String.intercalate "\n" (lines.map Line.text)) ∧
    Shows leg ts lines

/-- The pairings of the turns in order are shown in this order. -/
theorem shows_linesOf (h : (ts.flatMap (ofTurn leg)).Perm leg) : Shows leg ts (linesOf leg ts) where
  headings := headings_linesOf leg ts
  entries := entries_linesOf none leg ts
  once := by
    have hpairings : (Leg.entries none (linesOf leg ts)).map (·.2) = ts.flatMap (ofTurn leg) := by
      rw [entries_linesOf, List.map_flatMap]
      refine List.flatMap_congr fun t _ => ?_
      rw [List.map_map]
      exact List.map_id _
    rwa [hpairings]

/-- **Every numbered leg is read turn by turn.** -/
theorem exists_readByTurn (hleg : leg.IsNumbered) : ∃ ts, ReadByTurn leg ts := by
  obtain ⟨ts, hts, hlists⟩ := exists_turns hleg
  have hsorted := flatMap_ofTurn hleg hlists
  have hperm := stableSort_perm Pairing.number leg
  exact ⟨ts, hts, hlists, hsorted, _, text_eq_ok hts, shows_linesOf (hsorted ▸ hperm)⟩

/-- A leg whose turns ascend is read as it stands. -/
theorem ReadByTurn.flatMap_ofTurn_eq_self (h : ReadByTurn leg ts)
    (hasc : leg.Pairwise fun c d => c.number ≤ d.number) : ts.flatMap (ofTurn leg) = leg :=
  h.sorted.trans (stableSort_eq_self hasc)

/-! ## 5. Sessions -/

/-- The request only looks at the leg. -/
def Request.looks : Request → Bool
  | .swapAt _ | .append _ => false
  | _ => true

/-- The turn of whatever the request adds is a whole number. -/
def Request.IsNumbered : Request → Prop
  | .append parts => ∀ c, Pairing.ofRow parts = .ok c → c.turn.IsWhole
  | _ => True

theorem looks_answer {q : Request} (hq : q.looks = true) : Action.Looks (answer q) := by
  cases q with
  | «show» | ofTurn => exact Action.looks_bind Action.looks_state fun _ => Action.looks_pure _
  | turns | text | textAt =>
    exact Action.looks_bind Action.looks_state fun _ =>
      Action.looks_bind (Action.looks_lift _) fun _ => Action.looks_pure _
  | sameAt =>
    exact Action.looks_bind Action.looks_state fun _ =>
      Action.looks_bind (Action.looks_lift _) fun _ =>
        Action.looks_bind (Action.looks_lift _) fun _ => Action.looks_pure _
  | swapAt | append => cases hq

/-- **What a request does to a leg**: nothing, or it swaps a pairing, or it adds one. -/
theorem snd_answer_cases (q : Request) (leg : Leg) :
    (answer q leg).2 = leg ∨ (∃ place, (answer q leg).2 = leg.modify place Pairing.swapped) ∨
      ∃ parts c, q = .append parts ∧ Pairing.ofRow parts = .ok c ∧
        (answer q leg).2 = leg ++ [c] := by
  cases q with
  | swapAt i =>
    simp only [answer, Action.bind_apply, Action.state_apply, Action.lift_apply,
      Action.change_apply, Outcome.ofExcept, swappedAt]
    rcases place leg i with e | place
    · exact Or.inl rfl
    · dsimp only [bind, Except.bind, pure, Except.pure]
      rcases pairing (leg.modify place Pairing.swapped) i with e | c
      · exact Or.inl rfl
      · exact Or.inr (Or.inl ⟨place, rfl⟩)
  | append parts =>
    simp only [answer, Action.bind_apply, Action.state_apply, Action.lift_apply,
      Action.change_apply, Outcome.ofExcept]
    cases hc : Pairing.ofRow parts with
    | error e => exact Or.inl rfl
    | ok c => exact Or.inr (Or.inr ⟨parts, c, rfl, hc, rfl⟩)
  | _ => exact Or.inl (looks_answer rfl leg)

/-- Swapping a pairing leaves all turns as they are. -/
theorem turns_modify (place : Nat) (leg : Leg) :
    (leg.modify place Pairing.swapped).map (·.turn) = leg.map (·.turn) := by
  refine List.ext_getElem? fun i => ?_
  rw [List.getElem?_map, List.getElem?_map, List.getElem?_modify]
  cases leg[i]? with
  | none => rfl
  | some c => by_cases hplace : place = i <;> simp [hplace, Pairing.swapped]

/-- **A leg stays numbered**, as long as nothing is added with another turn. -/
theorem isNumbered_answer {q : Request} (hq : q.IsNumbered) (hleg : leg.IsNumbered) :
    IsNumbered (answer q leg).2 := by
  rcases snd_answer_cases q leg with hsame | ⟨place, hswapped⟩ | ⟨parts, c, rfl, hc, hadded⟩
  · rwa [hsame]
  · intro c hc
    rw [hswapped] at hc
    have hturn : c.turn ∈ leg.map (·.turn) := turns_modify place leg ▸ List.mem_map_of_mem hc
    obtain ⟨d, hd, hdc⟩ := List.mem_map.mp hturn
    exact hdc ▸ hleg d hd
  · intro d hd
    rw [hadded] at hd
    rcases List.mem_append.mp hd with hd | hd
    · exact hleg d hd
    · rw [List.mem_singleton.mp hd]
      exact hq c hc

/-- **A leg that is worked on can be read**, whatever is swapped in it or added to it. -/
theorem isNumbered_run {qs : List Request} (hqs : ∀ q ∈ qs, q.IsNumbered)
    (hleg : leg.IsNumbered) : IsNumbered (Session.run answer qs leg).2 := by
  induction qs generalizing leg with
  | nil => exact hleg
  | cons q qs ih =>
    exact ih (fun r hr => hqs r (List.mem_cons_of_mem q hr))
      (isNumbered_answer (hqs q List.mem_cons_self) hleg)

end Leg
end Matchday
