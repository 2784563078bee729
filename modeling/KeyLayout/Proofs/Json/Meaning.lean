/-
What a JSON text says.

The meaning of a text has exact numbers, and an object gives each of its names at most one meaning.
A text has a meaning as it stands (`Source.meaning`), and so has a value as it is written
(`Value.meaning`).  Between the two lies the reader, who takes integers of sixty-four bits as they
are but makes a double of every other number.  So what was read is written with the meaning that it
had exactly if every number in it survives that (`Source.meaning_eq_iff`).
-/
import Mathlib
import KeyLayout.Proofs.Json.Finite
import KeyLayout.Proofs.Json.Source

namespace KeyLayout.Json

open KeyLayout.Document KeyLayout.Decimal

/-! ### Numbers -/

/-- The number that stands in a text. -/
def NumberParts.value (n : NumberParts) : ℚ :=
  let digits : ℚ := ofDigits (n.whole ++ n.fraction.getD [])
  let places : ℤ := (n.fraction.getD []).length
  let power : ℤ :=
    match n.power with
    | none => 0
    | some p => if p.negative then -(ofDigits p.digits : ℤ) else ofDigits p.digits
  (if n.negative then -digits else digits) * 10 ^ (power - places)

/-- The number that a double is written as; only a finite one has a written form. -/
def written? (x : Float) : Option ℚ :=
  match scanNumber ⟨0, floatText x⟩ with
  | .ok (n, _) => some n.value
  | .error _ => none

/-- An integer of sixty-four bits, with a sign or without. -/
structure NumberParts.IsWord (n : NumberParts) : Prop where
  fraction : n.fraction = none
  power : n.power = none
  least : -2 ^ 63 ≤ n.value
  greatest : n.value < 2 ^ 64

/-- A number is read such that it is written as the number that it was. -/
def NumberParts.Survives (n : NumberParts) : Prop :=
  n.IsWord ∨ ∃ x, n.scalar 0 = .ok (.float x) ∧ written? x = some n.value

section whole

variable {negative : Bool} {whole : List Char}

/-- The integer that digits with a sign stand for. -/
def wholeValue (negative : Bool) (whole : List Char) : ℤ :=
  if negative then -(ofDigits whole : ℤ) else ofDigits whole

theorem NumberParts.value_whole :
    value ⟨negative, whole, none, none⟩ = wholeValue negative whole := by
  have hone : (10 : ℚ) ^ ((0 : ℤ) - (([] : List Char).length : ℤ)) = 1 := by simp
  rw [value, wholeValue]
  dsimp only [Option.getD_none]
  rw [List.append_nil, hone, mul_one]
  split_ifs <;> push_cast <;> rfl

theorem NumberParts.isWord_whole : IsWord ⟨negative, whole, none, none⟩ ↔
    -2 ^ 63 ≤ wholeValue negative whole ∧ wholeValue negative whole < 2 ^ 64 := by
  constructor
  · rintro ⟨-, -, hleast, hgreatest⟩
    rw [value_whole] at hleast hgreatest
    exact ⟨by exact_mod_cast hleast, by exact_mod_cast hgreatest⟩
  · rintro ⟨hleast, hgreatest⟩
    refine ⟨rfl, rfl, ?_, ?_⟩ <;> rw [value_whole]
    · exact_mod_cast hleast
    · exact_mod_cast hgreatest

end whole

/-- An integer of sixty-four bits is read as it stands, except for minus zero; every other number
becomes a double. -/
theorem NumberParts.scalar_cases {n : NumberParts} {stop : Offset} {v : Scalar}
    (h : n.scalar stop = .ok v) :
    (∃ m : ℤ, v = .int m ∧ n.IsWord ∧ n.value = m) ∨
      ∃ x, v = .float x ∧ (n.IsWord → x = -(Float.ofNat 0) ∧ n.value = 0) := by
  obtain ⟨negative, whole, fraction, power⟩ := n
  have hmaxWord : maxWord = 2 ^ 64 - 1 := rfl
  have hleast : Nat.pow 2 63 = 2 ^ 63 := rfl
  rw [scalar] at h
  dsimp only at h
  by_cases hplain : fraction.isNone && power.isNone && ofDigits whole ≤ maxWord
  · rw [if_pos hplain] at h
    obtain ⟨⟨rfl, rfl⟩, hmax⟩ : (fraction = none ∧ power = none) ∧ ofDigits whole ≤ maxWord := by
      simpa using hplain
    have hvalue := @value_whole negative whole
    have hword := @isWord_whole negative whole
    rw [wholeValue] at hvalue hword
    cases negative with
    | false =>
      rw [if_neg Bool.false_ne_true] at hvalue hword
      obtain rfl := Except.ok.inj h
      exact .inl ⟨ofDigits whole, rfl, hword.mpr (by omega), hvalue⟩
    | true =>
      rw [if_pos rfl] at hvalue hword
      rw [if_neg (by decide : ¬(!true) = true)] at h
      by_cases hrange : 0 < ofDigits whole && ofDigits whole ≤ Nat.pow 2 63
      · rw [if_pos hrange] at h
        obtain rfl := Except.ok.inj h
        rw [Bool.and_eq_true, decide_eq_true_eq, decide_eq_true_eq] at hrange
        exact .inl ⟨-ofDigits whole, rfl, hword.mpr (by omega), hvalue⟩
      · -- of the integers with a sign, only zero is a word that is not taken for one
        rw [if_neg hrange] at h
        obtain rfl := Except.ok.inj h
        rw [Bool.and_eq_true, decide_eq_true_eq, decide_eq_true_eq] at hrange
        refine .inr ⟨_, rfl, fun hplainWord => ?_⟩
        have hwhole := hword.mp hplainWord
        have hzero : ofDigits whole = 0 := by omega
        rw [hvalue, hzero]
        exact ⟨rfl, by simp⟩
  · rw [if_neg hplain] at h
    obtain ⟨x, -, rfl⟩ := map_eq_ok.mp h
    refine .inr ⟨x, rfl, fun hword => absurd ?_ hplain⟩
    obtain rfl : fraction = none := hword.fraction
    obtain rfl : power = none := hword.power
    have hmax : ofDigits whole ≤ maxWord := by
      have hwhole := isWord_whole.mp hword
      rw [wholeValue] at hwhole
      split_ifs at hwhole <;> omega
    simpa using hmax

/-! ### Texts and values -/

/-- What a text says. -/
inductive Meaning where
  | null
  | bool (b : Bool)
  | number (q : ℚ)
  | text (s : String)
  | list (items : List Meaning)
  | record (members : String → Option Meaning)

mutual

/-- What the text says that has this source. -/
def Source.meaning : Source → Meaning
  | .null => .null
  | .bool b => .bool b
  | .number n => .number n.value
  | .text s => .text s
  | .list items => .list (sourceItemMeanings items)
  | .record members => .record fun name => lastNamed name (sourceMemberMeanings members)

def sourceItemMeanings : List Source → List Meaning
  | [] => []
  | s :: items => s.meaning :: sourceItemMeanings items

def sourceMemberMeanings : List (String × Source) → List (String × Meaning)
  | [] => []
  | (name, s) :: members => (name, s.meaning) :: sourceMemberMeanings members

end

mutual

/-- What the text says that a value is written as. -/
def Value.meaning : Value → Meaning
  | .null => .null
  | .bool b => .bool b
  | .int n => .number n
  | .float x =>
    match written? x with
    | some q => .number q
    | none => .null
  | .text s => .text s
  | .list items => .list (itemMeanings items)
  | .record members => .record fun name => lastNamed name (memberMeanings members)

def itemMeanings : List Value → List Meaning
  | [] => []
  | v :: items => v.meaning :: itemMeanings items

def memberMeanings : List (String × Value) → List (String × Meaning)
  | [] => []
  | (name, v) :: members => (name, v.meaning) :: memberMeanings members

end

/-- Every number that counts survives being read and written. -/
inductive Source.Survives : Source → Prop
  | null : Survives .null
  | bool (b : Bool) : Survives (.bool b)
  | number {n : NumberParts} (hn : n.Survives) : Survives (.number n)
  | text (s : String) : Survives (.text s)
  | list {items : List Source} (hitems : ∀ s ∈ items, Survives s) : Survives (.list items)
  /-- Of several members of one name only the last one counts. -/
  | record {members : List (String × Source)}
      (hmembers : ∀ name s, lastNamed name members = some s → Survives s) :
      Survives (.record members)

/-! ### What survives -/

theorem written?_minus_zero : written? (-(Float.ofNat 0)) = some 0 := by
  have hscan : scanNumber ⟨0, floatText (-(Float.ofNat 0))⟩ =
      .ok (⟨true, ['0'], some ['0'], none⟩, ⟨4, []⟩) := by decide +kernel
  have hdigits : ofDigits ['0', '0'] = 0 := by decide
  rw [written?, hscan]
  simp [NumberParts.value, hdigits]

theorem meaning_float {x : Float} {q : ℚ} :
    (Value.float x).meaning = .number q ↔ written? x = some q := by
  rw [Value.meaning]
  cases written? x <;> simp

/-- A number is written as the number that it was if and only if it survives. -/
theorem NumberParts.meaning_eq_iff {n : NumberParts} {v : Scalar} (h : n.scalar 0 = .ok v) :
    v.toValue.meaning = .number n.value ↔ n.Survives := by
  rcases scalar_cases h with ⟨m, rfl, hword, hvalue⟩ | ⟨x, rfl, hminus⟩
  · rw [Scalar.toValue, Value.meaning, hvalue]
    exact iff_of_true rfl (.inl hword)
  · rw [Scalar.toValue, if_pos (scalar_isFinite h), meaning_float]
    constructor
    · exact fun hwritten => .inr ⟨x, h, hwritten⟩
    · rintro (hword | ⟨x', hscalar, hwritten⟩)
      · -- a word that became a double is minus zero, which is written as zero
        obtain ⟨rfl, hzero⟩ := hminus hword
        rw [hzero]
        exact written?_minus_zero
      · obtain rfl : x = x' := Scalar.float.inj (Except.ok.inj (h.symm.trans hscalar))
        exact hwritten

theorem sourceItemMeanings_eq (items : List Source) :
    sourceItemMeanings items = items.map Source.meaning := by
  induction items with
  | nil => rw [sourceItemMeanings, List.map_nil]
  | cons s items ih => rw [sourceItemMeanings, ih, List.map_cons]

theorem sourceMemberMeanings_eq (members : List (String × Source)) :
    sourceMemberMeanings members = members.map fun m => (m.1, m.2.meaning) := by
  induction members with
  | nil => rw [sourceMemberMeanings, List.map_nil]
  | cons m members ih => rw [sourceMemberMeanings, ih, List.map_cons]

theorem itemMeanings_eq (items : List Value) : itemMeanings items = items.map Value.meaning := by
  induction items with
  | nil => rw [itemMeanings, List.map_nil]
  | cons v items ih => rw [itemMeanings, ih, List.map_cons]

theorem memberMeanings_eq (members : List (String × Value)) :
    memberMeanings members = members.map fun m => (m.1, m.2.meaning) := by
  induction members with
  | nil => rw [memberMeanings, List.map_nil]
  | cons m members ih => rw [memberMeanings, ih, List.map_cons]

/-- What an object says under a name that was read from a text. -/
theorem Source.meaning_record (members : List (String × Source)) :
    (Source.record members).meaning =
      .record fun name => (lastNamed name members).map Source.meaning := by
  rw [meaning]
  congr 1
  funext name
  rw [sourceMemberMeanings_eq, lastNamed_map]

/-- What says what an object says is an object. -/
theorem Source.exists_record {s : Source} {said : String → Option Meaning}
    (h : s.meaning = .record said) : ∃ members, s = .record members ∧
      ∀ name, (lastNamed name members).map Source.meaning = said name := by
  cases s with
  | record members =>
    rw [meaning_record] at h
    exact ⟨members, rfl, congrFun (Meaning.record.inj h)⟩
  | _ =>
    rw [meaning] at h
    cases h

theorem Value.meaning_ofMembers (entries : List (String × Value)) :
    (Value.record (Fields.ofMembers entries)).meaning =
      .record fun name => (lastNamed name entries).map Value.meaning := by
  rw [meaning]
  congr 1
  funext name
  rw [memberMeanings_eq, lastNamed_map, Fields.lastNamed_ofMembers]

theorem Source.value_number {n : NumberParts} {v : Value} :
    (Source.number n).value? = some v ↔ ∃ x, n.scalar 0 = .ok x ∧ x.toValue = v := by
  rw [value?]
  cases n.scalar 0 <;> simp [Except.toOption]

/-- The value is written with the meaning of what stands in the text if and only if that survives
being read. -/
def Source.Faithful (s : Source) (v : Value) : Prop := v.meaning = s.meaning ↔ s.Survives

theorem faithful_option {before : Option Source} {after : Option Value}
    (h : Option.Rel Source.Faithful before after) :
    after.map Value.meaning = before.map Source.meaning ↔ ∀ s, before = some s → s.Survives := by
  cases h with
  | none => simp
  | some h => simpa [Source.Faithful] using h

theorem faithful_list {items : List Source} {vs : List Value}
    (h : List.Forall₂ Source.Faithful items vs) : (Source.list items).Faithful (.list vs) := by
  have hall : vs.map Value.meaning = items.map Source.meaning ↔ ∀ s ∈ items, s.Survives := by
    induction h with
    | nil => simp
    | cons hs _ ih =>
      rw [Source.Faithful] at hs
      rw [List.map_cons, List.map_cons, List.cons.injEq, hs, ih, List.forall_mem_cons]
  rw [Source.Faithful, Value.meaning, Source.meaning, itemMeanings_eq, sourceItemMeanings_eq,
    Meaning.list.injEq, hall]
  exact ⟨.list, by rintro ⟨⟩; assumption⟩

theorem faithful_record {members : List (String × Source)} {entries : List (String × Value)}
    (h : List.Forall₂ (fun m named => m.1 = named.1 ∧ m.2.Faithful named.2) members entries) :
    (Source.record members).Faithful (.record (Fields.ofMembers entries)) := by
  have hname : ∀ name, (lastNamed name entries).map Value.meaning =
      (lastNamed name members).map Source.meaning ↔
        ∀ s, lastNamed name members = some s → s.Survives :=
    fun name => faithful_option (lastNamed_rel h)
  rw [Source.Faithful, Value.meaning_ofMembers, Source.meaning_record, Meaning.record.injEq,
    funext_iff, forall_congr' hname]
  exact ⟨.record, by rintro ⟨⟩; assumption⟩

mutual

/-- **What was read from a text is written with the meaning that it had if and only if every number
in it survives.** -/
theorem Source.meaning_eq_iff : ∀ (s : Source) (v : Value), s.value? = some v → s.Faithful v
  | .null, v, h => by
    rw [Source.value?] at h
    obtain rfl := Option.some_inj.mp h
    exact iff_of_true (by rw [Value.meaning, Source.meaning]) .null
  | .bool b, v, h => by
    rw [Source.value?] at h
    obtain rfl := Option.some_inj.mp h
    exact iff_of_true (by rw [Value.meaning, Source.meaning]) (.bool b)
  | .number n, v, h => by
    obtain ⟨x, hscalar, rfl⟩ := Source.value_number.mp h
    rw [Source.Faithful, Source.meaning, n.meaning_eq_iff hscalar]
    exact ⟨.number, by rintro ⟨⟩; assumption⟩
  | .text s, v, h => by
    rw [Source.value?] at h
    obtain rfl := Option.some_inj.mp h
    exact iff_of_true (by rw [Value.meaning, Source.meaning]) (.text s)
  | .list items, v, h => by
    rw [Source.value?] at h
    obtain ⟨vs, hvs, rfl⟩ := Option.map_eq_some_iff.mp h
    exact faithful_list (itemMeanings_eq_iff items vs hvs)
  | .record members, v, h => by
    rw [Source.value?] at h
    obtain ⟨entries, hentries, rfl⟩ := Option.map_eq_some_iff.mp h
    exact faithful_record (memberMeanings_eq_iff members entries hentries)

theorem itemMeanings_eq_iff : ∀ (items : List Source) (vs : List Value),
    itemValues? items = some vs → List.Forall₂ Source.Faithful items vs
  | [], vs, h => by
    rw [itemValues?] at h
    obtain rfl := Option.some_inj.mp h
    exact .nil
  | s :: items, vs, h => by
    rw [itemValues?] at h
    obtain ⟨v, hv, h⟩ := Option.bind_eq_some_iff.mp h
    obtain ⟨vs', hvs, h⟩ := Option.bind_eq_some_iff.mp h
    obtain rfl := Option.some_inj.mp h
    exact .cons (s.meaning_eq_iff v hv) (itemMeanings_eq_iff items vs' hvs)

theorem memberMeanings_eq_iff : ∀ (members : List (String × Source))
    (entries : List (String × Value)), memberValues? members = some entries →
    List.Forall₂ (fun m named => m.1 = named.1 ∧ m.2.Faithful named.2) members entries
  | [], entries, h => by
    rw [memberValues?] at h
    obtain rfl := Option.some_inj.mp h
    exact .nil
  | (name, s) :: members, entries, h => by
    rw [memberValues?] at h
    obtain ⟨v, hv, h⟩ := Option.bind_eq_some_iff.mp h
    obtain ⟨entries', hentries, h⟩ := Option.bind_eq_some_iff.mp h
    obtain rfl := Option.some_inj.mp h
    exact .cons ⟨rfl, s.meaning_eq_iff v hv⟩ (memberMeanings_eq_iff members entries' hentries)

end

/-! ### Values without doubles -/

/-- The meaning, unless it is `null`. -/
def Meaning.nonNull? : Meaning → Option Meaning
  | .null => none
  | m => some m

/-- The value is `null`, an integer or a text. -/
inductive Value.Plain : Value → Prop
  | null : Plain .null
  | int (n : Int) : Plain (.int n)
  | text (s : String) : Plain (.text s)

theorem Value.Plain.nonNull?_meaning {v : Value} (h : v.Plain) :
    v.meaning.nonNull? = v.nonNull?.map Value.meaning := by
  cases h <;> rw [meaning] <;> rfl

/-- What is read as an integer, a text or `null` survives. -/
theorem Source.survives_of_plain {s : Source} {v : Value} (h : s.value? = some v)
    (hv : v.Plain) : s.Survives := by
  cases s with
  | null => exact .null
  | bool b => exact .bool b
  | text s => exact .text s
  | number n =>
    obtain ⟨x, hscalar, rfl⟩ := value_number.mp h
    rcases NumberParts.scalar_cases hscalar with ⟨m, rfl, hword, -⟩ | ⟨x, rfl, -⟩
    · exact .number (.inl hword)
    · rw [Scalar.toValue, if_pos (NumberParts.scalar_isFinite hscalar)] at hv
      cases hv
  | list items =>
    rw [value?] at h
    obtain ⟨vs, -, rfl⟩ := Option.map_eq_some_iff.mp h
    cases hv
  | record members =>
    rw [value?] at h
    obtain ⟨entries, -, rfl⟩ := Option.map_eq_some_iff.mp h
    cases hv

theorem memberValues_forall₂ {members : List (String × Source)} {entries : List (String × Value)}
    (h : memberValues? members = some entries) :
    List.Forall₂ (fun m named => m.1 = named.1 ∧ m.2.value? = some named.2) members entries := by
  induction members generalizing entries with
  | nil =>
    rw [memberValues?] at h
    obtain rfl := Option.some_inj.mp h
    exact .nil
  | cons m members ih =>
    obtain ⟨name, s⟩ := m
    rw [memberValues?] at h
    obtain ⟨v, hv, h⟩ := Option.bind_eq_some_iff.mp h
    obtain ⟨entries', hentries, h⟩ := Option.bind_eq_some_iff.mp h
    obtain rfl := Option.some_inj.mp h
    exact .cons ⟨rfl, hv⟩ (ih hentries)

/-- What is read as an object is an object, and it is read name by name. -/
theorem Source.value_record {s : Source} {fields : Fields} (h : s.value? = some (.record fields)) :
    ∃ members, s = .record members ∧ ∀ name, Option.Rel (fun s v => s.value? = some v)
      (lastNamed name members) (fields.lookup name) := by
  cases s with
  | record members =>
    rw [value?] at h
    obtain ⟨entries, hentries, hrecord⟩ := Option.map_eq_some_iff.mp h
    obtain rfl := Value.record.inj hrecord
    refine ⟨members, rfl, fun name => ?_⟩
    rw [Fields.lookup_ofMembers]
    exact lastNamed_rel (memberValues_forall₂ hentries)
  | number n =>
    obtain ⟨x, hscalar, hx⟩ := value_number.mp h
    rcases NumberParts.scalar_cases hscalar with ⟨m, rfl, -⟩ | ⟨x, rfl, -⟩
    · cases hx
    · rw [Scalar.toValue, if_pos (NumberParts.scalar_isFinite hscalar)] at hx
      cases hx
  | list items =>
    rw [value?] at h
    obtain ⟨vs, -, hlist⟩ := Option.map_eq_some_iff.mp h
    cases hlist
  | _ =>
    rw [value?] at h
    cases h

section names

variable {before : Option Source} {after : Option Value}
  (h : Option.Rel (fun s v => s.value? = some v) before after)

include h

theorem eq_bind_of_rel : after = before.bind Source.value? := by
  cases h with
  | none => rfl
  | some hv => exact hv.symm

theorem eq_none_of_rel (hnone : after = none) : before = none := by
  cases h with
  | none => rfl
  | some => cases hnone

theorem meaning_of_plain (hplain : ∀ v ∈ after, v.Plain) :
    before.map Source.meaning = after.map Value.meaning := by
  cases h with
  | none => rfl
  | @some s v hv =>
    have hsurvives := Source.survives_of_plain hv (hplain v rfl)
    exact congrArg some ((Source.meaning_eq_iff s v hv).mpr hsurvives).symm

/-- What is read under a name is written with the meaning that it had if and only if it survives. -/
theorem meaning_map_eq_iff :
    after.map Value.meaning = before.map Source.meaning ↔ ∀ s, before = some s → s.Survives := by
  refine faithful_option ?_
  cases h with
  | none => exact .none
  | @some s v hv => exact .some (s.meaning_eq_iff v hv)

end names

end KeyLayout.Json
