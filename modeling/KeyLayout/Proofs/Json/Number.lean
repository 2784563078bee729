/-
Reading back what was written as a number.

A number is read in the same way whatever follows it, as long as that cannot belong to
a number (`EndsNumber`); this is shown part by part for the whole digits, the fraction and
the power, and put together in `readNumber_append`.

An integer of sixty-four bits is read back as itself (`readNumber_intText`).  Whether a
floating-point number is depends on the last bit of its reading and is a property of
the number, `ReadsBack`.
-/
import KeyLayout.Json.Reader
import KeyLayout.Json.Writer
import KeyLayout.Proofs.Decimal.Digits

namespace KeyLayout.Json

open KeyLayout.Document KeyLayout.Decimal

/-- Nothing at the front of a text can belong to a number before it. -/
def EndsNumber (rest : List Char) : Prop :=
  ∀ c ∈ rest.head?, isDigit c = false ∧ c ≠ '.' ∧ c ≠ 'e' ∧ c ≠ 'E'

theorem EndsNumber.nil : EndsNumber [] := by
  simp [EndsNumber]

theorem EndsNumber.cons {c : Char} (hc : isDigit c = false ∧ c ≠ '.' ∧ c ≠ 'e' ∧ c ≠ 'E')
    (rest : List Char) : EndsNumber (c :: rest) := by
  simpa [EndsNumber] using hc

section Parts

variable {text left rest digits : List Char} {place stop : Offset}

theorem takeDigits_append (h : takeDigits ⟨place, text⟩ = (digits, ⟨stop, left⟩))
    (hrest : EndsNumber rest) (place' : Offset) :
    takeDigits ⟨place', text ++ rest⟩ = (digits, ⟨place' + digits.length, left ++ rest⟩) := by
  rcases hspan : spanDigits text with ⟨digits', left'⟩
  rw [takeDigits, hspan] at h
  obtain ⟨rfl, hafter⟩ := Prod.mk.inj h
  obtain ⟨_, rfl⟩ := Cursor.mk.inj hafter
  rw [takeDigits, spanDigits_append hspan fun c hc => (hrest c hc).1]

theorem scanWhole_eq_ok_iff {c after : Cursor} :
    scanWhole c = .ok (digits, after) ↔
      takeDigits c = (digits, after) ∧ digits ≠ [] ∧ ∀ more, digits = '0' :: more → more = [] := by
  rcases h : takeDigits c with ⟨found, stop⟩
  rw [scanWhole, h, Prod.mk.injEq]
  simp only
  split
  case h_1 => simp; grind
  case h_2 => simp; grind
  case h_3 hnil hlong =>
    rw [Except.ok.injEq, Prod.mk.injEq]
    constructor
    · rintro ⟨rfl, rfl⟩
      refine ⟨⟨rfl, rfl⟩, hnil, fun more hmore => ?_⟩
      rcases more with _ | ⟨d, more⟩
      · rfl
      · exact absurd hmore (hlong d more)
    · exact fun h => h.1

theorem scanWhole_append (h : scanWhole ⟨place, text⟩ = .ok (digits, ⟨stop, left⟩))
    (hrest : EndsNumber rest) (place' : Offset) :
    ∃ stop', scanWhole ⟨place', text ++ rest⟩ = .ok (digits, ⟨stop', left ++ rest⟩) := by
  rw [scanWhole_eq_ok_iff] at h
  exact ⟨_, scanWhole_eq_ok_iff.mpr ⟨takeDigits_append h.1 hrest place', h.2⟩⟩

/-- Without a point there is no fraction. -/
theorem scanFraction_eq_none {c : Cursor} (h : c.rest.head? ≠ some '.') :
    scanFraction c = .ok (none, c) := by
  rw [scanFraction]
  split
  case h_1 hpoint => simp [hpoint] at h
  case h_2 => rfl

theorem scanFraction_point :
    scanFraction ⟨place, '.' :: text⟩ =
      if (takeDigits ⟨place + 1, text⟩).1.isEmpty then
        .error (noDigit (takeDigits ⟨place + 1, text⟩).2)
      else .ok (some (takeDigits ⟨place + 1, text⟩).1, (takeDigits ⟨place + 1, text⟩).2) := rfl

theorem scanFraction_append {fraction : Option (List Char)}
    (h : scanFraction ⟨place, text⟩ = .ok (fraction, ⟨stop, left⟩))
    (hrest : EndsNumber rest) (place' : Offset) :
    ∃ stop', scanFraction ⟨place', text ++ rest⟩ = .ok (fraction, ⟨stop', left ++ rest⟩) := by
  by_cases hpoint : text.head? = some '.'
  · obtain ⟨text, rfl⟩ := List.head?_eq_some_iff.mp hpoint
    rcases hdigits : takeDigits ⟨place + 1, text⟩ with ⟨digits, ⟨stop₁, left₁⟩⟩
    rw [scanFraction_point, hdigits] at h
    rw [List.cons_append, scanFraction_point, takeDigits_append hdigits hrest]
    split at h
    · simp at h
    · rename_i hne
      simp only [Except.ok.injEq, Prod.mk.injEq, Cursor.mk.injEq] at h
      obtain ⟨rfl, rfl, rfl⟩ := h
      exact ⟨_, if_neg hne⟩
  · rw [scanFraction_eq_none hpoint] at h
    simp only [Except.ok.injEq, Prod.mk.injEq, Cursor.mk.injEq] at h
    obtain ⟨rfl, rfl, rfl⟩ := h
    refine ⟨place', scanFraction_eq_none ?_⟩
    -- at the end of the text it is the rest that must not start with a point
    rcases text with _ | ⟨c, text⟩
    · intro hhead
      exact (hrest '.' hhead).2.1 rfl
    · exact hpoint

/-- The sign of a power, and where its digits start. -/
def powerSign (place : Offset) (text : List Char) : Bool × Cursor :=
  match text with
  | '+' :: rest => (false, ⟨place + 2, rest⟩)
  | '-' :: rest => (true, ⟨place + 2, rest⟩)
  | _ => (false, ⟨place + 1, text⟩)

theorem powerSign_append (htext : text ≠ []) (rest : List Char) (place place' : Offset) :
    ∃ start, powerSign place' (text ++ rest) =
      ((powerSign place text).1, ⟨start, (powerSign place text).2.rest ++ rest⟩) := by
  rcases text with _ | ⟨c, text⟩
  · exact absurd rfl htext
  · by_cases hplus : c = '+'
    · subst c
      exact ⟨_, rfl⟩
    · by_cases hminus : c = '-'
      · subst c
        exact ⟨_, rfl⟩
      · exact ⟨place' + 1, by simp [powerSign, hplus, hminus]⟩

theorem scanPower_eq_none {c : Cursor} (h : ∀ e ∈ c.rest.head?, e ≠ 'e' ∧ e ≠ 'E') :
    scanPower c = .ok (none, c) := by
  rw [scanPower]
  split
  case h_1 e rest hrest =>
    have he := h e (by rw [hrest]; rfl)
    simp [he.1, he.2]
  case h_2 => rfl

theorem scanPower_letter {e : Char} (he : e = 'e' ∨ e = 'E') :
    scanPower ⟨place, e :: text⟩ =
      if (takeDigits (powerSign place text).2).1.isEmpty then
        .error (noDigit (powerSign place text).2)
      else .ok (some ⟨(powerSign place text).1, (takeDigits (powerSign place text).2).1,
        (powerSign place text).2.place⟩, (takeDigits (powerSign place text).2).2) := by
  have hletter : (decide (e = 'e') || decide (e = 'E')) = true := by simpa using he
  rw [scanPower]
  dsimp only
  rw [if_pos hletter]
  rfl

/-- The same power with its digits at another place. -/
def PowerParts.moveTo (start : Offset) (p : PowerParts) : PowerParts := { p with start := start }

theorem scanPower_append {power : Option PowerParts}
    (h : scanPower ⟨place, text⟩ = .ok (power, ⟨stop, left⟩)) (hrest : EndsNumber rest)
    (place' : Offset) :
    ∃ start stop', scanPower ⟨place', text ++ rest⟩ =
      .ok (power.map (PowerParts.moveTo start), ⟨stop', left ++ rest⟩) := by
  by_cases hletter : ∃ e, text.head? = some e ∧ (e = 'e' ∨ e = 'E')
  · obtain ⟨e, hhead, he⟩ := hletter
    obtain ⟨text, rfl⟩ := List.head?_eq_some_iff.mp hhead
    rw [scanPower_letter he] at h
    rw [List.cons_append, scanPower_letter he]
    have htext : text ≠ [] := by
      -- otherwise the number alone would end behind the letter
      rintro rfl
      simp [powerSign, takeDigits, spanDigits] at h
    obtain ⟨start, hsign⟩ := powerSign_append htext rest place place'
    rcases hdigits : takeDigits (powerSign place text).2 with ⟨digits, ⟨stop₁, left₁⟩⟩
    rw [hdigits] at h
    rw [hsign, takeDigits_append hdigits hrest]
    split at h
    · simp at h
    · rename_i hne
      simp only [Except.ok.injEq, Prod.mk.injEq, Cursor.mk.injEq] at h
      obtain ⟨rfl, rfl, rfl⟩ := h
      exact ⟨start, _, if_neg hne⟩
  · rw [scanPower_eq_none (by simpa using hletter)] at h
    simp only [Except.ok.injEq, Prod.mk.injEq, Cursor.mk.injEq] at h
    obtain ⟨rfl, rfl, rfl⟩ := h
    refine ⟨0, place', scanPower_eq_none ?_⟩
    rcases text with _ | ⟨c, text⟩
    · exact fun c hc => (hrest c hc).2.2
    · simpa using hletter

/-- The parts of a number behind its sign. -/
def scanParts (negative : Bool) (c : Cursor) : Except NumberComplaint (NumberParts × Cursor) := do
  let (whole, c) ← scanWhole c
  let (fraction, c) ← scanFraction c
  let (power, c) ← scanPower c
  return (⟨negative, whole, fraction, power⟩, c)

theorem scanNumber_minus :
    scanNumber ⟨place, '-' :: text⟩ = scanParts true ⟨place + 1, text⟩ := rfl

theorem scanNumber_unsigned {c : Cursor} (h : c.rest.head? ≠ some '-') :
    scanNumber c = scanParts false c := by
  rw [scanNumber]
  split
  rename_i hsign
  split at hsign
  case h_1 hminus => simp [hminus] at h
  case h_2 =>
    obtain ⟨rfl, rfl⟩ := Prod.mk.inj hsign
    rfl

theorem scanParts_eq_ok_iff {negative : Bool} {c after : Cursor} {parts : NumberParts} :
    scanParts negative c = .ok (parts, after) ↔
      parts.negative = negative ∧ ∃ c₁ c₂, scanWhole c = .ok (parts.whole, c₁) ∧
        scanFraction c₁ = .ok (parts.fraction, c₂) ∧ scanPower c₂ = .ok (parts.power, after) := by
  obtain ⟨negative', whole, fraction, power⟩ := parts
  rw [scanParts]
  rcases hwhole : scanWhole c with e | ⟨whole', c₁⟩
  · simp [bind, Except.bind]
  rcases hfraction : scanFraction c₁ with e | ⟨fraction', c₂⟩
  · simp [bind, Except.bind, hfraction]
  rcases hpower : scanPower c₂ with e | ⟨power', c₃⟩
  · simp [bind, Except.bind, hfraction, hpower]
  · simp [bind, Except.bind, hfraction, hpower, pure, Except.pure]
    grind

/-- The same number with the digits of its power at another place. -/
def NumberParts.moveTo (start : Offset) (n : NumberParts) : NumberParts :=
  { n with power := n.power.map (PowerParts.moveTo start) }

theorem scanParts_append {negative : Bool} {parts : NumberParts}
    (h : scanParts negative ⟨place, text⟩ = .ok (parts, ⟨stop, left⟩)) (hrest : EndsNumber rest)
    (place' : Offset) :
    ∃ start stop', scanParts negative ⟨place', text ++ rest⟩ =
      .ok (parts.moveTo start, ⟨stop', left ++ rest⟩) := by
  rw [scanParts_eq_ok_iff] at h
  obtain ⟨hnegative, ⟨p₁, left₁⟩, ⟨p₂, left₂⟩, hwhole, hfraction, hpower⟩ := h
  obtain ⟨p₁', hwhole'⟩ := scanWhole_append hwhole hrest place'
  obtain ⟨p₂', hfraction'⟩ := scanFraction_append hfraction hrest p₁'
  obtain ⟨start, stop', hpower'⟩ := scanPower_append hpower hrest p₂'
  exact ⟨start, stop', scanParts_eq_ok_iff.mpr ⟨hnegative, _, _, hwhole', hfraction', hpower'⟩⟩

theorem scanNumber_append {parts : NumberParts}
    (h : scanNumber ⟨place, text⟩ = .ok (parts, ⟨stop, left⟩)) (hrest : EndsNumber rest)
    (place' : Offset) :
    ∃ start stop', scanNumber ⟨place', text ++ rest⟩ =
      .ok (parts.moveTo start, ⟨stop', left ++ rest⟩) := by
  by_cases hminus : text.head? = some '-'
  · obtain ⟨text, rfl⟩ := List.head?_eq_some_iff.mp hminus
    rw [scanNumber_minus] at h
    rw [List.cons_append, scanNumber_minus]
    exact scanParts_append h hrest _
  · rw [scanNumber_unsigned hminus] at h
    have hhead : (text ++ rest).head? ≠ some '-' := by
      rcases text with _ | ⟨c, text⟩
      · -- an empty text has no digits
        obtain ⟨_, _, _, hwhole, _⟩ := scanParts_eq_ok_iff.mp h
        simp [scanWhole, takeDigits, spanDigits] at hwhole
      · exact hminus
    rw [scanNumber_unsigned hhead]
    exact scanParts_append h hrest _

/-- The places of a number matter only for complaints. -/
theorem NumberParts.double_moveTo {n : NumberParts} {x : Float} (h : n.double stop = .ok x)
    (start stop' : Offset) : (n.moveTo start).double stop' = .ok x := by
  obtain ⟨negative, whole, fraction, power⟩ := n
  rcases power with _ | ⟨negativePower, digits, digitsAt⟩
  all_goals
    simp only [double, moveTo, PowerParts.moveTo, Option.map_none, Option.map_some] at h ⊢
    repeat' split at h
    all_goals simp_all

theorem NumberParts.scalar_moveTo {n : NumberParts} {v : Scalar} (h : n.scalar stop = .ok v)
    (start stop' : Offset) : (n.moveTo start).scalar stop' = .ok v := by
  have hpower : (n.moveTo start).power.isNone = n.power.isNone := Option.isNone_map
  rw [scalar] at h ⊢
  rw [hpower]
  rcases hdouble : n.double stop with e | x
  · -- then the number is an integer
    rw [hdouble] at h
    split at h
    · rename_i hint
      exact (if_pos hint).trans h
    · simp [Except.map] at h
  · rw [hdouble] at h
    rw [double_moveTo hdouble start stop']
    exact h

theorem readNumber_of_scan {c after : Cursor} {parts : NumberParts} {v : Scalar}
    (hscan : scanNumber c = .ok (parts, after)) (hscalar : parts.scalar after.place = .ok v) :
    readNumber c = (.scalar v none (some ⟨c.place, after.place⟩), some after) := by
  rw [readNumber, hscan]
  simp only [hscalar]

theorem scan_of_readNumber {c after : Cursor} {v : Scalar} {span : Option Span}
    (h : readNumber c = (.scalar v none span, some after)) :
    ∃ parts, scanNumber c = .ok (parts, after) ∧ parts.scalar after.place = .ok v := by
  rcases hscan : scanNumber c with e | ⟨parts, after'⟩
  · simp [readNumber, hscan] at h
  rcases hscalar : parts.scalar after'.place with e | v'
  · simp [readNumber, hscan, hscalar] at h
  rw [readNumber_of_scan hscan hscalar] at h
  simp only [Prod.mk.injEq, Node.scalar.injEq, Option.some.injEq] at h
  obtain ⟨⟨rfl, -, -⟩, rfl⟩ := h
  exact ⟨parts, rfl, hscalar⟩

/-- A number is read in the same way whatever follows it. -/
theorem readNumber_append {v : Scalar} {span : Option Span}
    (h : readNumber ⟨place, text⟩ = (.scalar v none span, some ⟨stop, left⟩))
    (hrest : EndsNumber rest) (place' : Offset) :
    ∃ span' stop', readNumber ⟨place', text ++ rest⟩ =
      (.scalar v none span', some ⟨stop', left ++ rest⟩) := by
  obtain ⟨parts, hscan, hscalar⟩ := scan_of_readNumber h
  obtain ⟨start, stop', hscan'⟩ := scanNumber_append hscan hrest place'
  have hscalar' := NumberParts.scalar_moveTo hscalar start stop'
  exact ⟨_, stop', readNumber_of_scan hscan' hscalar'⟩

/-- A number starts with a sign or a digit. -/
theorem readNumber_head {v : Scalar} {span : Option Span} {c after : Cursor}
    (h : readNumber c = (.scalar v none span, some after)) :
    ∃ d ∈ c.rest.head?, d = '-' ∨ isDigit d = true := by
  by_cases hminus : c.rest.head? = some '-'
  · exact ⟨'-', hminus, .inl rfl⟩
  obtain ⟨parts, hscan, -⟩ := scan_of_readNumber h
  rw [scanNumber_unsigned hminus, scanParts_eq_ok_iff] at hscan
  obtain ⟨_, c₁, _, hwhole, _⟩ := hscan
  obtain ⟨hdigits, hne, _⟩ := scanWhole_eq_ok_iff.mp hwhole
  rw [takeDigits, spanDigits_eq] at hdigits
  have hwhole' : c.rest.takeWhile isDigit = parts.whole := congrArg Prod.fst hdigits
  rcases hrest : c.rest with _ | ⟨d, more⟩
  · exact absurd (by rw [← hwhole', hrest]; rfl) hne
  · refine ⟨d, rfl, .inr ?_⟩
    by_contra hd
    exact hne (by rw [← hwhole', hrest, List.takeWhile_cons_of_neg hd])

end Parts

/-- Digits alone are an integer. -/
theorem scanParts_digitsOf (negative : Bool) (n : Nat) {rest : List Char} (hrest : EndsNumber rest)
    (place : Offset) :
    ∃ stop, scanParts negative ⟨place, digitsOf n ++ rest⟩ =
      .ok (⟨negative, digitsOf n, none, none⟩, ⟨stop, rest⟩) := by
  have hdigits : takeDigits ⟨place, digitsOf n ++ rest⟩ =
      (digitsOf n, ⟨place + (digitsOf n).length, rest⟩) := by
    rw [takeDigits, spanDigits_of_digits (fun c => isDigit_of_mem_digitsOf)
      fun c hc => (hrest c hc).1]
  have hwhole := scanWhole_eq_ok_iff.mpr
    ⟨hdigits, digitsOf_ne_nil n, fun more => digitsOf_zero_cons⟩
  have hfraction : scanFraction ⟨place + (digitsOf n).length, rest⟩ = .ok (none, _) :=
    scanFraction_eq_none fun hhead => (hrest '.' hhead).2.1 rfl
  have hpower : scanPower ⟨place + (digitsOf n).length, rest⟩ = .ok (none, _) :=
    scanPower_eq_none fun c hc => (hrest c hc).2.2
  exact ⟨_, scanParts_eq_ok_iff.mpr ⟨rfl, _, _, hwhole, hfraction, hpower⟩⟩

theorem intText_natCast (m : Nat) : intText m = digitsOf m := by
  have hneg : ¬(m : Int) < 0 := by omega
  rw [intText, Int.natAbs_natCast, signed, decide_eq_false hneg, if_neg Bool.false_ne_true]

theorem intText_neg {m : Nat} (hm : 0 < m) : intText (-(m : Int)) = '-' :: digitsOf m := by
  have hneg : -(m : Int) < 0 := by omega
  rw [intText, Int.natAbs_neg, Int.natAbs_natCast, signed, decide_eq_true hneg, if_pos rfl]

/-- An integer of sixty-four bits is read back as itself. -/
theorem readNumber_intText {n : Int} (hn : fitsBits 64 n = true) {rest : List Char}
    (hrest : EndsNumber rest) (place : Offset) :
    ∃ span stop, readNumber ⟨place, intText n ++ rest⟩ =
      (.scalar (.int n) none span, some ⟨stop, rest⟩) := by
  have hrange : -(2 : Int) ^ 63 ≤ n ∧ n < 2 ^ 64 := by simpa [fitsBits] using hn
  by_cases hneg : n < 0
  · obtain ⟨m, rfl⟩ : ∃ m : Nat, n = -(m : Int) := ⟨n.natAbs, by omega⟩
    have hmax : m ≤ maxWord := by
      simp only [maxWord, Nat.pow_eq]
      omega
    have hpos : 0 < m ∧ m ≤ Nat.pow 2 63 := by
      rw [Nat.pow_eq]
      omega
    obtain ⟨stop, hscan⟩ := scanParts_digitsOf true m hrest (place + 1)
    have hscalar : NumberParts.scalar ⟨true, digitsOf m, none, none⟩ stop = .ok (.int (-m)) := by
      simp [NumberParts.scalar, ofDigits_digitsOf, hmax, hpos]
    rw [intText_neg hpos.1]
    exact ⟨_, stop, readNumber_of_scan (scanNumber_minus.trans hscan) hscalar⟩
  · obtain ⟨m, rfl⟩ : ∃ m : Nat, n = m := ⟨n.natAbs, by omega⟩
    have hmax : m ≤ maxWord := by
      simp only [maxWord, Nat.pow_eq]
      omega
    obtain ⟨stop, hscan⟩ := scanParts_digitsOf false m hrest place
    have hscalar : NumberParts.scalar ⟨false, digitsOf m, none, none⟩ stop = .ok (.int m) := by
      simp [NumberParts.scalar, ofDigits_digitsOf, hmax]
    have hunsigned : (digitsOf m ++ rest).head? ≠ some '-' := by
      obtain ⟨c, more, hdigits, hc⟩ := digitsOf_eq_cons m
      rw [hdigits]
      rintro ⟨⟩
      exact absurd hc (by decide)
    rw [intText_natCast]
    exact ⟨_, stop, readNumber_of_scan ((scanNumber_unsigned hunsigned).trans hscan) hscalar⟩

/-- A floating-point number whose written form is read as that number, up to its end. -/
def ReadsBack (x : Float) : Prop :=
  ∃ span stop, readNumber ⟨0, floatText x⟩ = (.scalar (.float x) none span, some ⟨stop, []⟩)

end KeyLayout.Json
