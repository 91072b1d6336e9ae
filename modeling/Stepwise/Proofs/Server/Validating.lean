/-
# Which values a step takes

A step takes its values if each of its parameters does: a required one has a value, and a value that is
there follows the rule. A number is given as one, or as a text that denotes one. Where a number above
zero is asked for, the text that names what is no number is taken as well, since it is not found to be
zero or below.

* `Value.Denotes` : the number that a value stands for;
* `PassingText`, `ScriptParameter.takes_text_iff` : the texts that pass for a number above zero;
* `ScriptParameter.Asks`, `ScriptParameter.Takes` : what a parameter asks for, and what it takes;
* `ScriptParameter.Offends` : what is wrong with a value;
* `ScriptStep.validate_exact` : what becomes of the values of a step;
* `ScriptStep.validate_takes_nan` : a step takes what it does not ask for.
-/
import Stepwise.Proofs.KeyMap
import Stepwise.Proofs.Number.Numeral
import Stepwise.Proofs.Server.Answering

namespace Stepwise

/-! ## Numbers as values -/

/-- The value stands for a number: it is one, or a text that denotes one between its blank ends. -/
inductive Value.Denotes (v : Value) : Binary64 → Prop where
  | number {n : Number} : v.tree = .num n → Denotes v n.toBinary64
  | text {s : String} {x : Binary64} : v.tree = .str s → NumberText (Text.trim s).toList x → Denotes v x

theorem Value.number?_eq_some_iff {v : Value} {x : Binary64} : v.number? = some x ↔ v.Denotes x := by
  constructor
  · intro h
    unfold Value.number? at h
    split at h
    next n hn =>
      obtain rfl := Option.some.inj h
      exact .number hn
    next s hs => exact .text hs (Binary64.ofText?_eq_some_iff.1 h)
    next => cases h
  · rintro (hn | ⟨hs, hx⟩)
    · rw [Value.number?, hn]
    · rw [Value.number?, hs]
      exact Binary64.ofText?_eq_some_iff.2 hx

theorem Value.number?_eq_none_iff {v : Value} : v.number? = none ↔ ∀ x, ¬ v.Denotes x := by
  simp only [← Value.number?_eq_some_iff, Option.eq_none_iff_forall_not_mem, Option.mem_def]

theorem Value.Denotes.unique {v : Value} {x y : Binary64} (hx : v.Denotes x) (hy : v.Denotes y) :
    x = y :=
  Option.some.inj ((Value.number?_eq_some_iff.2 hx).symm.trans (Value.number?_eq_some_iff.2 hy))

theorem Value.denotes_text_iff {v : Value} {s : String} (hs : v.tree = .str s) {x : Binary64} :
    v.Denotes x ↔ NumberText (Text.trim s).toList x := by
  constructor
  · rintro (hn | ⟨hs', hx⟩)
    · cases hs.symm.trans hn
    · obtain rfl := Json.str.inj (hs.symm.trans hs')
      exact hx
  · exact .text hs

/-- The text passes for a number above zero. There is no minus, and it names infinity or is a decimal
that is not read as zero; or it names what is no number, whatever the sign. -/
inductive PassingText : List Char → Prop where
  | infinite {sign rest : List Char} : SignText sign false →
      smallLetters rest = "inf" ∨ smallLetters rest = "infinity" → PassingText (sign ++ rest)
  | decimal {sign rest : List Char} {d : Decimal} : SignText sign false → DecimalText rest d →
      1 / 2 ^ Binary64.halfPlaces < d.value → PassingText (sign ++ rest)
  | nan {sign rest : List Char} {negative : Bool} : SignText sign negative →
      smallLetters rest = "nan" → PassingText (sign ++ rest)

/-- These texts denote a number above zero, or none. -/
theorem passingText_iff {cs : List Char} :
    PassingText cs ↔ ∃ x, NumberText cs x ∧ (x.isPositive = true ∨ x.isNaN = true) := by
  constructor
  · rintro (⟨hsign, hname⟩ | ⟨hsign, hd, hlarge⟩ | ⟨hsign, hname⟩)
    · have h := NumberText.signed hsign (.infinite hname)
      exact ⟨_, h, .inl (h.isPositive_iff.2 ⟨_, _, hsign, rfl, or_assoc.1 (.inl hname)⟩)⟩
    · have h := NumberText.signed hsign (.decimal hd)
      exact ⟨_, h, .inl (h.isPositive_iff.2 ⟨_, _, hsign, rfl, .inr (.inr ⟨_, hd, hlarge⟩)⟩)⟩
    · have h := NumberText.signed hsign (.nan hname)
      exact ⟨_, h, .inr (h.isNaN_iff.2 ⟨_, _, _, hsign, rfl, hname⟩)⟩
  · rintro ⟨x, h, hpos | hnan⟩
    · obtain ⟨sign, rest, hsign, rfl, hname | hname | ⟨d, hd, hlarge⟩⟩ := h.isPositive_iff.1 hpos
      · exact .infinite hsign (.inl hname)
      · exact .infinite hsign (.inr hname)
      · exact .decimal hsign hd hlarge
    · obtain ⟨sign, negative, rest, hsign, rfl, hname⟩ := h.isNaN_iff.1 hnan
      exact .nan hsign hname

/-! ## One parameter -/

namespace ScriptParameter

/-- The value is what the parameter asks for. -/
def Asks (p : ScriptParameter) (v : Value) : Prop :=
  (p.required = true → v.isEmpty = false) ∧
    (v.isEmpty = false → ∀ rule ∈ p.rule,
      ∃ x, v.Denotes x ∧ (rule = .positive → x.isPositive = true))

/-- The parameter takes the value. -/
def Takes (p : ScriptParameter) (v : Value) : Prop :=
  (p.required = true → v.isEmpty = false) ∧
    (v.isEmpty = false → ∀ rule ∈ p.rule,
      ∃ x, v.Denotes x ∧ (rule = .positive → x.isPositive = true ∨ x.isNaN = true))

/-- What is wrong with a value of the parameter. -/
inductive Offends (p : ScriptParameter) (v : Value) : Complaint → Prop where
  | missing : p.required = true → v.isEmpty = true → Offends p v .missing
  | notNumber {rule : Rule} : v.isEmpty = false → p.rule = some rule → (∀ x, ¬ v.Denotes x) →
      Offends p v .notNumber
  | notPositive {x : Binary64} : v.isEmpty = false → p.rule = some .positive → v.Denotes x →
      x.isAtMostZero = true → Offends p v .notPositive

end ScriptParameter

/-- A number is above zero, or zero or below, or none. -/
theorem Binary64.isAtMostZero_eq_false_iff (x : Binary64) :
    x.isAtMostZero = false ↔ x.isPositive = true ∨ x.isNaN = true := by
  unfold isAtMostZero isPositive
  cases x.isNaN <;> cases x.negative <;> cases x.isZero <;> decide

namespace Rule

variable {rule : Rule} {v : Value}

theorem complaint?_of_none (h : v.number? = none) : rule.complaint? v = some .notNumber := by
  unfold complaint?
  rw [h]

theorem complaint?_of_some {x : Binary64} (h : v.number? = some x) :
    rule.complaint? v =
      if rule = .positive ∧ x.isAtMostZero = true then some .notPositive else none := by
  cases rule with
  | number => simp [complaint?, h]
  | positive => simp [complaint?, h]

/-- A value follows a rule. -/
theorem complaint?_eq_none_iff :
    rule.complaint? v = none ↔
      ∃ x, v.Denotes x ∧ (rule = .positive → x.isPositive = true ∨ x.isNaN = true) := by
  simp only [← Value.number?_eq_some_iff, ← Binary64.isAtMostZero_eq_false_iff]
  cases h : v.number? with
  | none => simp [complaint?_of_none h]
  | some x => simp [complaint?_of_some h]

end Rule

namespace ScriptParameter

variable {p : ScriptParameter} {v : Value}

theorem complaint?_of_isEmpty (h : v.isEmpty = true) :
    p.complaint? v = if p.required = true then some .missing else none := by
  rw [complaint?, if_pos h]

theorem complaint?_of_not_isEmpty (h : v.isEmpty = false) :
    p.complaint? v = p.rule.bind (·.complaint? v) := by
  rw [complaint?, if_neg (by rw [h]; exact Bool.false_ne_true)]

/-- The complaint about a value says what is wrong with it. -/
theorem complaint?_eq_some_iff {c : Complaint} : p.complaint? v = some c ↔ p.Offends v c := by
  constructor
  · intro h
    cases hempty : v.isEmpty with
    | true =>
      rw [complaint?_of_isEmpty hempty, Option.ite_none_right_eq_some] at h
      obtain ⟨hrequired, h⟩ := h
      obtain rfl := Option.some.inj h
      exact .missing hrequired hempty
    | false =>
      rw [complaint?_of_not_isEmpty hempty] at h
      obtain ⟨rule, hrule, h⟩ := Option.bind_eq_some_iff.1 h
      cases hnumber : v.number? with
      | none =>
        rw [Rule.complaint?_of_none hnumber] at h
        obtain rfl := Option.some.inj h
        exact .notNumber hempty hrule (Value.number?_eq_none_iff.1 hnumber)
      | some x =>
        rw [Rule.complaint?_of_some hnumber, Option.ite_none_right_eq_some] at h
        obtain ⟨⟨rfl, hzero⟩, h⟩ := h
        obtain rfl := Option.some.inj h
        exact .notPositive hempty hrule (Value.number?_eq_some_iff.1 hnumber) hzero
  · intro h
    cases h with
    | missing hrequired hempty => rw [complaint?_of_isEmpty hempty, if_pos hrequired]
    | notNumber hempty hrule hnone =>
      rw [complaint?_of_not_isEmpty hempty, hrule, Option.bind_some]
      exact Rule.complaint?_of_none (Value.number?_eq_none_iff.2 hnone)
    | notPositive hempty hrule hx hzero =>
      rw [complaint?_of_not_isEmpty hempty, hrule, Option.bind_some,
        Rule.complaint?_of_some (Value.number?_eq_some_iff.2 hx), if_pos ⟨rfl, hzero⟩]

/-- There is no complaint about a value that is taken. -/
theorem complaint?_eq_none_iff : p.complaint? v = none ↔ p.Takes v := by
  cases hempty : v.isEmpty with
  | true => simp [complaint?_of_isEmpty hempty, Takes, hempty]
  | false =>
    simp [complaint?_of_not_isEmpty hempty, Takes, hempty, Rule.complaint?_eq_none_iff,
      Option.bind_eq_none_iff]

/-- A parameter takes what it asks for, and besides, where a number above zero is asked for, what
denotes no number. -/
theorem asks_iff : p.Asks v ↔
    p.Takes v ∧ (v.isEmpty = false → p.rule = some .positive → ∀ x, v.Denotes x → x.isNaN = false) := by
  constructor
  · intro h
    refine ⟨⟨h.1, fun hempty rule hrule => ?_⟩, fun hempty hrule x hx => ?_⟩
    · obtain ⟨x, hx, hpos⟩ := h.2 hempty rule hrule
      exact ⟨x, hx, fun hrule => .inl (hpos hrule)⟩
    · obtain ⟨y, hy, hpos⟩ := h.2 hempty .positive hrule
      obtain rfl := hx.unique hy
      have := hpos rfl
      simp_all [Binary64.isPositive]
  · rintro ⟨h, hnan⟩
    refine ⟨h.1, fun hempty rule hrule => ?_⟩
    obtain ⟨x, hx, hpos⟩ := h.2 hempty rule hrule
    refine ⟨x, hx, ?_⟩
    rintro rfl
    rcases hpos rfl with hpos | hnone
    · exact hpos
    · rw [hnan hempty hrule x hx] at hnone
      cases hnone

/-- Where a number above zero is asked for, the texts are taken that pass for one. -/
theorem takes_text_iff (positive : p.rule = some .positive) (given : v.isEmpty = false) {s : String}
    (hs : v.tree = .str s) : p.Takes v ↔ PassingText (Text.trim s).toList := by
  simp only [passingText_iff, Takes, positive, given, Option.mem_def, Option.some.injEq,
    Value.denotes_text_iff hs, forall_eq', forall_const, implies_true, true_and]

/-- The value of the parameter among those of a process, which is absent if there is none. -/
def valueIn (p : ScriptParameter) (values : KeyMap Value) : Value := (values.get? p.name).getD .null

end ScriptParameter

/-! ## The parameters of a step -/

namespace ScriptStep

variable (step : ScriptStep) (values : KeyMap Value)

theorem complaints_eq_nil_iff :
    step.complaints values = [] ↔ ∀ p ∈ step.parameters, p.Takes (p.valueIn values) := by
  simp only [complaints, List.filterMap_eq_nil_iff, Option.map_eq_none_iff,
    ScriptParameter.complaint?_eq_none_iff, ScriptParameter.valueIn]

/-- The message about a name is that of the last parameter with the name whose value is wrong. -/
theorem get?_complaints (name text : String) :
    (KeyMap.ofList ((step.complaints values).map fun c => (c.1, c.2.text))).get? name = some text ↔
      ∃ before p after c, step.parameters = before ++ p :: after ∧ p.name = name ∧
        p.Offends (p.valueIn values) c ∧ c.text = text ∧
        ∀ q ∈ after, q.name = name → ∀ c, ¬ q.Offends (q.valueIn values) c := by
  -- the last complaint about the name is about the last parameter with the name that has one
  have hlast : (KeyMap.ofList ((step.complaints values).map fun c => (c.1, c.2.text))).get? name =
      (step.parameters.reverse.find? fun p =>
        p.name == name && (p.complaint? (p.valueIn values)).isSome).bind
          fun p => (p.complaint? (p.valueIn values)).map Complaint.text := by
    rw [KeyMap.get?_ofList, ← List.map_reverse, complaints, ← List.filterMap_reverse, List.find?_map,
      List.find?_filterMap, Option.map_map, Option.map_bind]
    congr 1
    · congr 1
      funext p
      rw [ScriptParameter.valueIn]
      cases p.complaint? ((values.get? p.name).getD .null) <;> simp
    · funext p
      rw [Function.comp_apply, Option.map_map]
      rfl
  rw [hlast, Option.bind_eq_some_iff]
  constructor
  · rintro ⟨p, hp, htext⟩
    obtain ⟨hname, after, before, hsplit, hafter⟩ := List.find?_eq_some_iff_append.1 hp
    obtain ⟨c, hc, rfl⟩ := Option.map_eq_some_iff.1 htext
    refine ⟨before.reverse, p, after.reverse, c, ?_, ?_, ScriptParameter.complaint?_eq_some_iff.1 hc,
      rfl, ?_⟩
    · rw [← List.reverse_inj, hsplit]
      simp
    · exact beq_iff_eq.1 (Bool.and_eq_true_iff.1 hname).1
    · intro q hq hqname c hc
      have := hafter q (List.mem_reverse.1 hq)
      simp [hqname, ScriptParameter.complaint?_eq_some_iff.2 hc] at this
  · rintro ⟨before, p, after, c, hsplit, hname, hc, rfl, hafter⟩
    have hc := ScriptParameter.complaint?_eq_some_iff.2 hc
    refine ⟨p, List.find?_eq_some_iff_append.2 ⟨by simp [hname, hc], after.reverse, before.reverse,
      by simp [hsplit], ?_⟩, by rw [hc]; rfl⟩
    intro q hq
    cases hqc : q.complaint? (q.valueIn values) with
    | none => simp
    | some d =>
      have hne : q.name ≠ name := fun hqname =>
        hafter q (List.mem_reverse.1 hq) hqname d (ScriptParameter.complaint?_eq_some_iff.1 hqc)
      simp [hne]

/-- **What becomes of the values of a step.** They are taken exactly if every parameter takes its own.
Otherwise the error has a message for every name of a parameter whose value is wrong, and for no other
name. What is taken is what is asked for, unless a number above zero is asked for and the value denotes
no number. Of the texts, exactly those are taken there that pass for a number above zero. -/
theorem validate_exact :
    ((∀ p ∈ step.parameters, p.Takes (p.valueIn values)) ∧ step.validate values = .ok () ∨
      (¬ ∀ p ∈ step.parameters, p.Takes (p.valueIn values)) ∧
        ∃ fields, step.validate values = .error (.recoverable "Validation failed" fields none) ∧
          ∀ name text, fields.get? name = some text ↔
            ∃ before p after c, step.parameters = before ++ p :: after ∧ p.name = name ∧
              p.Offends (p.valueIn values) c ∧ c.text = text ∧
              ∀ q ∈ after, q.name = name → ∀ c, ¬ q.Offends (q.valueIn values) c) ∧
    ((∀ p ∈ step.parameters, p.Asks (p.valueIn values)) ↔
      (∀ p ∈ step.parameters, p.Takes (p.valueIn values)) ∧
        ∀ p ∈ step.parameters, (p.valueIn values).isEmpty = false → p.rule = some .positive →
          ∀ x, (p.valueIn values).Denotes x → x.isNaN = false) ∧
    ∀ p ∈ step.parameters, p.rule = some .positive → (p.valueIn values).isEmpty = false →
      ∀ s, (p.valueIn values).tree = .str s →
        (p.Takes (p.valueIn values) ↔ PassingText (Text.trim s).toList) := by
  refine ⟨?_, by simp only [ScriptParameter.asks_iff, ← forall_and],
    fun p _ positive given s hs => p.takes_text_iff positive given hs⟩
  rw [← complaints_eq_nil_iff, validate_eq]
  by_cases h : step.complaints values = []
  · exact .inl ⟨h, if_pos h⟩
  · exact .inr ⟨h, _, if_neg h, step.get?_complaints values⟩

/-- A step that asks for an amount above zero. -/
def priced : ScriptStep :=
  ⟨"Price", none, [⟨"amount", "Amount", .null, true, some .positive⟩], false, false, false, []⟩

/-- **A step takes what it does not ask for.** The name of what is no number passes for a number above
zero. -/
theorem validate_takes_nan :
    priced.validate (.ofList [("amount", .str "nan")]) = .ok () ∧
      ¬ ∀ p ∈ priced.parameters, p.Asks (p.valueIn (.ofList [("amount", .str "nan")])) := by
  refine ⟨rfl, fun asks => ?_⟩
  obtain ⟨x, hx, hpos⟩ := (asks _ List.mem_cons_self).2 rfl .positive rfl
  obtain rfl := hx.unique (Value.number?_eq_some_iff.1 (rfl : _ = some Binary64.nan))
  exact absurd (hpos rfl) (by decide)

end ScriptStep

end Stepwise
