/-
# What speaks against participants

There are four objections to participants: the collection has no order, somebody is of the wrong
kind, somebody has something inside that can still be changed, or two of them are equal
(`Objection`).  For participants who are equal to themselves, as participants are meant to be, there
are no others.  What is no number is not equal to itself, and still a collection is turned away that
lists one such object twice (`RepeatsNoNumber`).  Whatever else is accepted, and its items are taken
as they come (`accept_of_objection`, `accept_of_no_objection`).

The planner finds out about the third and the fourth in a roundabout way.  It looks for the first
obstacle among the parts, which is there exactly if something inside can be changed
(`Value.isKey_iff`); and it counts what is left of the items when repetitions are erased, which are
all of them exactly if no two are the same, that is if no two are equal and no such object is listed
twice (`allDifferent_iff`).

Since nobody else is ever set as a participant, those of the moment are different keys of the right
kind after any requests (`participants_accepted`).
-/
import Matchday.Proofs.Planner.Sessions

namespace Matchday

/-! ## 1. What cannot serve as a key -/

namespace Value

/-- What can still be changed: lists, dictionaries and sets. -/
def canChange : Value → Bool
  | .list _ | .dict _ | .set _ => true
  | _ => false

/-- A value is inside itself, and inside a tuple is whatever is inside one of its items. -/
inductive Inside (w : Value) : Value → Prop
  | itself : Inside w w
  | item {v : Value} {items : List Value} (hv : v ∈ items) (h : Inside w v) :
      Inside w (.tuple items)

/-- **A value serves as a key exactly when nothing inside it can be changed**, however deep. -/
theorem isKey_iff {v : Value} : v.isKey = true ↔ ∀ w, Inside w v → w.canChange = false := by
  induction v using byParts with
  | step v ih =>
    cases v with
    | none | bool | int | decimal | text | bye | rule | half =>
      refine ⟨fun _ w hw => ?_, fun _ => rfl⟩
      cases hw
      rfl
    | list | dict | set =>
      exact ⟨fun h => absurd h Bool.false_ne_true, fun h => nomatch h _ .itself⟩
    | tuple items =>
      rw [isKey_tuple, List.all_eq_true]
      constructor
      · rintro h w (_ | ⟨hv, hw⟩)
        · rfl
        · exact (ih _ hv).mp (h _ hv) w hw
      · exact fun h v hv => (ih v hv).mpr fun w hw => h w (.item hv hw)

end Value

namespace Planner

/-! ## 2. Objections -/

/-- **What speaks against the items of a collection** as participants of a kind. -/
inductive Objection (kind : Kind) (source : Source) (items : List Value) : Prop
  | unordered (h : source.unorderedName?.isSome = true)
  | wrongKind {p : Value} (hp : p ∈ items) (h : p.isOf kind = false)
  | changing {p w : Value} (hp : p ∈ items) (hw : w.Inside p) (h : w.canChange = true)
  | equal {i j : Nat} (hij : i < j) (hj : j < items.length) (h : equals items[i] items[j] = true)

/-- One and the same object that is no number is listed twice. -/
def RepeatsNoNumber (items : List Value) : Prop :=
  ∃ (object i j : Nat), i < j ∧ items[i]? = some (.decimal (.noNumber object)) ∧
    items[j]? = some (.decimal (.noNumber object))

section Objections

variable {kind : Kind} {source : Source} {items : List Value}

/-- Among items that are equal to themselves there is no such object. -/
theorem not_repeatsNoNumber (h : ∀ v ∈ items, equals v v = true) : ¬ RepeatsNoNumber items := by
  rintro ⟨object, i, j, -, hi, -⟩
  exact Value.equals_self_iff.mp (h _ (List.mem_of_getElem? hi)) object rfl

/-- **Items are different from each other** when no two are equal and nothing that is no number is
listed twice. -/
theorem allDifferent_iff : AllDifferent items ↔
    (∀ (i j : Nat) (hij : i < j) (hj : j < items.length), equals items[i] items[j] = false) ∧
      ¬ RepeatsNoNumber items := by
  rw [AllDifferent, List.pairwise_iff_getElem]
  constructor
  · intro h
    refine ⟨fun i j hij hj => equals_of_not_beq (h i j (Nat.lt_trans hij hj) hj hij), ?_⟩
    rintro ⟨object, i, j, hij, hi, hj⟩
    obtain ⟨hi, heq⟩ := List.getElem?_eq_some_iff.mp hi
    obtain ⟨hj, heq'⟩ := List.getElem?_eq_some_iff.mp hj
    have hdiffer := h i j hi hj hij
    rw [heq, heq', BEq.rfl] at hdiffer
    cases hdiffer
  · rintro ⟨hequal, hrepeats⟩ i j hi hj hij
    refine Bool.eq_false_iff.mpr fun hsame => ?_
    rcases Value.beq_iff_equals_or.mp hsame with h | ⟨object, heq, heq'⟩
    · rw [hequal i j hij hj] at h
      cases h
    · exact hrepeats ⟨object, i, j, hij, List.getElem?_eq_some_iff.mpr ⟨hi, heq⟩,
        List.getElem?_eq_some_iff.mpr ⟨hj, heq'⟩⟩

/-- Items to which there is no objection are keys of the kind, in order, no two of them equal. -/
theorem not_objection_iff : ¬ Objection kind source items ↔
    source.unorderedName? = none ∧ (∀ p ∈ items, p.isOf kind = true) ∧
      (∀ p ∈ items, p.isKey = true) ∧
      ∀ (i j : Nat) (hij : i < j) (hj : j < items.length), equals items[i] items[j] = false := by
  constructor
  · intro h
    refine ⟨?_, fun p hp => ?_, fun p hp => Value.isKey_iff.mpr fun w hw => ?_,
      fun i j hij hj => ?_⟩
    · exact Option.not_isSome_iff_eq_none.mp fun hsome => h (.unordered hsome)
    · exact eq_true_of_ne_false fun hof => h (.wrongKind hp hof)
    · exact Bool.eq_false_iff.mpr fun hchange => h (.changing hp hw hchange)
    · exact Bool.eq_false_iff.mpr fun hequal => h (.equal hij hj hequal)
  · rintro ⟨hname, hof, hkey, hd⟩ (hsome | ⟨hp, h⟩ | ⟨hp, hw, h⟩ | ⟨hij, hj, h⟩)
    · rw [hname] at hsome
      cases hsome
    · rw [hof _ hp] at h
      cases h
    · rw [Value.isKey_iff.mp (hkey _ hp) _ hw] at h
      cases h
    · rw [hd _ _ hij hj] at h
      cases h

/-- **Without an objection the items are accepted** as they come, unless an object that is no number
is listed twice. -/
theorem accept_of_no_objection (hitems : source.items = .ok items)
    (h : ¬ Objection kind source items) (hrepeats : ¬ RepeatsNoNumber items) :
    (accept kind source).result = .ok items := by
  obtain ⟨hname, hof, hkey, hequal⟩ := not_objection_iff.mp h
  exact accept_eq_ok_iff.mpr ⟨hname, hitems, hof, hkey, allDifferent_iff.mpr ⟨hequal, hrepeats⟩⟩

/-- What has items is accepted or turned away because of its participants. -/
theorem accept_cases (hitems : source.items = .ok items) :
    (accept kind source).result = .ok items ∨
      ∃ r, (accept kind source).result = .error (.rejected r) ∧ r.family = .participants := by
  unfold accept
  split
  · exact Or.inr ⟨_, rfl, rfl⟩
  · rw [Outcome.result_bind, hitems]
    change (Outcome.result _ = _) ∨ ∃ r, Outcome.result _ = _ ∧ _
    split
    · exact Or.inr ⟨_, rfl, rfl⟩
    · split
      · exact Or.inr ⟨_, rfl, rfl⟩
      · split
        · exact Or.inl rfl
        · exact Or.inr ⟨_, rfl, rfl⟩

/-- **With an objection the participants are turned away**, and so they are if an object that is no
number is listed twice. -/
theorem accept_of_objection (hitems : source.items = .ok items)
    (h : Objection kind source items ∨ RepeatsNoNumber items) :
    ∃ r, (accept kind source).result = .error (.rejected r) ∧ r.family = .participants := by
  refine (accept_cases hitems).resolve_left fun hok => ?_
  obtain ⟨hname, -, hof, hkey, hd⟩ := accept_eq_ok_iff.mp hok
  obtain ⟨hequal, hrepeats⟩ := allDifferent_iff.mp hd
  exact h.elim (not_objection_iff.mpr ⟨hname, hof, hkey, hequal⟩) hrepeats

end Objections

/-! ## 3. Sessions -/

section Sessions

variable {d : Desk} {source : Source} {items : List Value}

/-- A request with participants who are turned away changes nothing. -/
theorem answer_of_objection (hitems : source.items = .ok items)
    (h : Objection d.planner.participantKind source items ∨ RepeatsNoNumber items) :
    ∃ r, (answer (.setParticipants source) d).1.result = .error (.rejected r) ∧
      r.family = .participants ∧ (answer (.setParticipants source) d).2 = d := by
  obtain ⟨r, hrejected, hfamily⟩ := accept_of_objection hitems h
  have hanswer := answer_setParticipants source d
  rw [hrejected] at hanswer
  exact ⟨r, hanswer.1, hfamily, hanswer.2⟩

/-- A request with participants who are not sets them. -/
theorem answer_of_no_objection (hitems : source.items = .ok items)
    (h : ¬ Objection d.planner.participantKind source items) (hrepeats : ¬ RepeatsNoNumber items) :
    (answer (.setParticipants source) d).1.result = .ok (.values items) ∧
      (answer (.setParticipants source) d).2.planner.participants = items := by
  have hanswer := answer_setParticipants source d
  rw [accept_of_no_objection hitems h hrepeats] at hanswer
  refine ⟨hanswer.1, ?_⟩
  rw [hanswer.2]
  rfl

end Sessions

/-- **Whom a planner accepts.**  After any requests to a planner its participants are different keys
of its kind.  A collection that is handed in then is turned away because of its participants exactly
if there is an objection to them or an object that is no number, so that it is not even equal to
itself, is listed twice; and the planner keeps those it has.  Otherwise the participants are the
items of the collection in their order.  For items that are equal to themselves it is only
objections that count. -/
theorem participants_accepted {kind refereeKind : Kind} {settings : Settings} {rs : List Request}
    {d : Desk} {source : Source} {items : List Value}
    (hd : (Session.run answer rs (.opened ⟨kind, refereeKind, settings, []⟩)).2 = d)
    (hitems : source.items = .ok items) :
    ((∃ r, (answer (.setParticipants source) d).1.result = .error (.rejected r) ∧
      r.family = .participants) ↔ Objection kind source items ∨ RepeatsNoNumber items) ∧
      ((∀ v ∈ items, equals v v = true) →
        ((∃ r, (answer (.setParticipants source) d).1.result = .error (.rejected r) ∧
          r.family = .participants) ↔ Objection kind source items)) ∧
      (Objection kind source items ∨ RepeatsNoNumber items →
        (answer (.setParticipants source) d).2.planner.participants = d.planner.participants) ∧
      (¬ (Objection kind source items ∨ RepeatsNoNumber items) →
        (answer (.setParticipants source) d).1.result = .ok (.values items) ∧
          (answer (.setParticipants source) d).2.planner.participants = items) ∧
      (∀ p ∈ d.planner.participants, p.isOf kind = true ∧
        ∀ w : Value, w.Inside p → w.canChange = false) ∧
      AllDifferent d.planner.participants := by
  have hplanner := planner_run (d := .opened ⟨kind, refereeKind, settings, []⟩) rfl rs
  rw [hd] at hplanner
  have hkind : d.planner.participantKind = kind := by rw [hplanner]
  have hlast : d.planner.participants = lastAccepted kind rs := by
    rw [hplanner]
    rfl
  obtain ⟨-, -, hof, hkey, hdiff⟩ := accept_eq_ok_iff.mp (accept_lastAccepted kind rs)
  rw [← hlast] at hof hkey hdiff
  subst hkind
  have haccepted : ¬ (Objection d.planner.participantKind source items ∨ RepeatsNoNumber items) →
      (answer (.setParticipants source) d).1.result = .ok (.values items) ∧
        (answer (.setParticipants source) d).2.planner.participants = items := fun h =>
    answer_of_no_objection hitems (fun hobjection => h (.inl hobjection))
      fun hrepeats => h (.inr hrepeats)
  have hrejected_iff : (∃ r, (answer (.setParticipants source) d).1.result = .error (.rejected r) ∧
      r.family = .participants) ↔
        Objection d.planner.participantKind source items ∨ RepeatsNoNumber items := by
    constructor
    · rintro ⟨r, hrejected, -⟩
      by_contra h
      rw [(haccepted h).1] at hrejected
      cases hrejected
    · intro h
      obtain ⟨r, hrejected, hfamily, -⟩ := answer_of_objection hitems h
      exact ⟨r, hrejected, hfamily⟩
  refine ⟨hrejected_iff, fun hself => ?_, fun h => ?_, haccepted,
    fun p hp => ⟨hof p hp, Value.isKey_iff.mp (hkey p hp)⟩, hdiff⟩
  · rw [hrejected_iff, or_iff_left (not_repeatsNoNumber hself)]
  · obtain ⟨r, -, -, hsame⟩ := answer_of_objection hitems h
    rw [hsame]

/-- A planner that has accepted two numbers is not given two tuples in which the numbers are equal,
nor one with a list inside, nor 2^60 as a whole number and as the decimal that is equal to it, nor
twice the same object that is no number.  But it is given 10^23 and the decimal that is written so,
which is the number next to it. -/
theorem participants_accepted_numbers :
    let accepted := [.setParticipants (.value (.list [.int 1, .text "1"]))]
    let d := (Session.run answer accepted (.opened ⟨.any, .any, .default, []⟩)).2
    let decimal (n : Nat) : Value := .decimal (.ofUnits false (n * Number.twos 1074) 1)
    let neighbours := [.int 100000000000000000000000, decimal 100000000000000000000000]
    d.planner.participants = [.int 1, .text "1"] ∧
      (∃ r, (answer (.setParticipants (.stream [.tuple [.int 1], .tuple [.bool true]])) d).1.result
        = .error (.rejected r) ∧ r.family = .participants) ∧
      (∃ r, (answer (.setParticipants (.value (.tuple [.tuple [.tuple [.list []]]]))) d).1.result
        = .error (.rejected r) ∧ r.family = .participants) ∧
      (∃ r, (answer (.setParticipants (.stream
          [.int 1152921504606846976, decimal 1152921504606846976])) d).1.result
        = .error (.rejected r) ∧ r.family = .participants) ∧
      (∃ r, (answer (.setParticipants (.stream
          [.decimal (.noNumber 0), .decimal (.noNumber 0)])) d).1.result
        = .error (.rejected r) ∧ r.family = .participants) ∧
      (answer (.setParticipants (.stream neighbours)) d).2.planner.participants = neighbours := by
  intro accepted d decimal neighbours
  have hd : (Session.run answer accepted (.opened ⟨.any, .any, .default, []⟩)).2 = d := rfl
  refine ⟨rfl, ?_, ?_, ?_, ?_, ?_⟩
  · have hsame : Objection .any (.stream [.tuple [.int 1], .tuple [.bool true]])
        [.tuple [.int 1], .tuple [.bool true]] :=
      .equal (i := 0) (j := 1) (by decide) (by decide) rfl
    exact (participants_accepted hd rfl).1.mpr (.inl hsame)
  · have hlist : Objection .any (.value (.tuple [.tuple [.tuple [.list []]]]))
        [.tuple [.tuple [.list []]]] :=
      .changing List.mem_cons_self (.item List.mem_cons_self (.item List.mem_cons_self .itself)) rfl
    exact (participants_accepted hd rfl).1.mpr (.inl hlist)
  · have hsame : Objection .any
        (.stream [.int 1152921504606846976, decimal 1152921504606846976])
        [.int 1152921504606846976, decimal 1152921504606846976] :=
      .equal (i := 0) (j := 1) (by decide) (by decide) (by decide +kernel)
    exact (participants_accepted hd rfl).1.mpr (.inl hsame)
  · exact (participants_accepted hd rfl).1.mpr (.inr ⟨0, 0, 1, by decide, rfl, rfl⟩)
  · have hdifferent : AllDifferent
        [.int 100000000000000000000000, decimal 100000000000000000000000] := by decide +kernel
    obtain ⟨hequal, hrepeats⟩ := allDifferent_iff.mp hdifferent
    refine ((participants_accepted hd rfl).2.2.2.1 fun h => h.elim ?_ hrepeats).2
    exact not_objection_iff.mpr ⟨rfl, by decide, by decide, hequal⟩

/-- **An object that is no number is turned away when it is listed twice**, though nothing speaks
against it: it is a key in order, and it is not equal to itself. -/
theorem no_number_twice_is_turned_away :
    let n : Value := .decimal (.noNumber 0)
    (∃ r, (answer (.setParticipants (.stream [n, n]))
        (.opened ⟨.any, .any, .default, []⟩)).1.result = .error (.rejected r) ∧
      r.family = .participants) ∧
      ¬ Objection .any (.stream [n, n]) [n, n] := by
  intro n
  refine ⟨⟨_, rfl, rfl⟩, not_objection_iff.mpr ⟨rfl, by decide, by decide, fun i j hij hj => ?_⟩⟩
  have hlength : j < 2 := hj
  obtain ⟨rfl, rfl⟩ : i = 0 ∧ j = 1 := by omega
  rfl

end Planner
end Matchday
