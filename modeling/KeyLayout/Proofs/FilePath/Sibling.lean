/-
Files beside each other.

The last part of a path is what follows its last slash, and `Front` is what may stand before it.
A path is `Named` when its last part, without the slashes at its end, is the name of a file.  Then
the path with another extension has the same front, and behind it the stem of the name with the
extension (`Named.withExtension_eq`).  That is another name whenever the extension has a dot in it
(`stem_append_ne`).
-/
import KeyLayout.Proofs.FilePath.Parent

namespace KeyLayout.FilePath

open Text

/-- What stands before the last part of a path: nothing, or something up to a slash. -/
inductive Front : List UInt8 → Prop
  | nothing : Front []
  | upTo (before : List UInt8) : Front (before ++ [slash])

/-- A part of a path that may be the name of a file. -/
structure IsName (name : List UInt8) : Prop extends Meaningful name where
  ne_dots : name ≠ [dot, dot]

variable {front name : List UInt8}

theorem exists_front (text : List UInt8) :
    ∃ front name, text = front ++ name ∧ Front front ∧ slash ∉ name := by
  by_cases hslash : slash ∈ text
  · obtain ⟨before, name, rfl, hname⟩ := exists_last_slash hslash
    exact ⟨before ++ [slash], name, by simp, .upTo before, hname⟩
  · exact ⟨[], text, rfl, .nothing, hslash⟩

/-- The pieces of a path are those of its front, and the last part. -/
theorem pieces_front (hfront : Front front) (hname : slash ∉ name) :
    Text.pieces slash (front ++ name) = (Text.pieces slash front).dropLast ++ [name] := by
  cases hfront with
  | nothing => exact pieces_of_not_mem hname
  | upTo before =>
    rw [List.append_assoc, List.singleton_append, pieces_append_sep, pieces_of_not_mem hname,
      pieces_append_sep]
    exact congrArg (· ++ [name]) List.dropLast_concat.symm

theorem isAbsolute_front (hfront : Front front) (hname : slash ∉ name) :
    isAbsolute ⟨front ++ name⟩ = (front.head? == some slash) := by
  rw [FilePath.isAbsolute]
  cases hfront with
  | nothing =>
    cases name with
    | nil => rfl
    | cons c name =>
      have hc : c ≠ slash := fun h => hname (h ▸ List.mem_cons_self)
      simpa using hc
  | upTo before => cases before <;> rfl

/-! ### Slashes at the end -/

theorem slack_of_forall {tail : List UInt8} (h : ∀ c ∈ tail, c = slash) : Slack tail := by
  induction tail with
  | nil => exact .nil
  | cons c rest ih =>
    rw [List.forall_mem_cons] at h
    obtain ⟨rfl, hrest⟩ := h
    exact .slash (ih hrest)

/-- What is taken off the end of a path means nothing. -/
theorem exists_slack_of_trimEnd (path : FilePath) :
    ∃ tail, Slack tail ∧ path.bytes = (trimEnd path).bytes ++ tail := by
  obtain ⟨bytes⟩ := path
  have hsplit : bytes = (bytes.reverse.dropWhile (· == slash)).reverse ++
      (bytes.reverse.takeWhile (· == slash)).reverse := by
    rw [← List.reverse_append, List.takeWhile_append_dropWhile, List.reverse_reverse]
  have hslashes : ∀ c ∈ (bytes.reverse.takeWhile (· == slash)).reverse, c = slash := by
    intro c hc
    simpa using List.all_eq_true.mp List.all_takeWhile c (List.mem_reverse.mp hc)
  rw [trimEnd]
  dsimp only
  split
  · -- nothing but slashes: one of them stays
    rename_i hnone
    rw [hnone, List.nil_append] at hsplit
    rw [← hsplit] at hslashes
    cases bytes with
    | nil => exact ⟨[], .nil, rfl⟩
    | cons c rest =>
      rw [List.forall_mem_cons] at hslashes
      obtain ⟨rfl, hrest⟩ := hslashes
      exact ⟨rest, slack_of_forall hrest, rfl⟩
  · exact ⟨_, slack_of_forall hslashes, hsplit⟩

/-- A last part keeps slashes from standing at the end. -/
theorem trimEnd_append (front : List UInt8) (hne : name ≠ []) (hname : slash ∉ name) :
    trimEnd ⟨front ++ name⟩ = ⟨front ++ name⟩ := by
  refine trimEnd_of_last ?_ (ne_of_mem_of_not_mem (List.getLast_mem hne) hname)
  rw [List.getLast?_append, List.getLast?_eq_some_getLast hne]
  rfl

/-- `Named path front name`: the path ends in the name of a file, slashes behind it aside. -/
structure Named (path : FilePath) (front name : List UInt8) : Prop where
  isFront : Front front
  isName : IsName name
  trimEnd_eq : trimEnd path = ⟨front ++ name⟩

theorem Named.bytes {path : FilePath} (h : Named path front name) :
    ∃ tail, Slack tail ∧ path.bytes = front ++ name ++ tail := by
  obtain ⟨tail, htail, hpath⟩ := exists_slack_of_trimEnd path
  rw [h.trimEnd_eq] at hpath
  exact ⟨tail, htail, hpath⟩

theorem Named.isAbsolute_eq {path : FilePath} (h : Named path front name) :
    isAbsolute path = (front.head? == some slash) := by
  obtain ⟨tail, -, hpath⟩ := h.bytes
  obtain ⟨c, rest, hc⟩ := List.exists_cons_of_ne_nil h.isName.ne_nil
  have hhead : isAbsolute path = isAbsolute ⟨front ++ name⟩ := by
    rw [isAbsolute, isAbsolute, hpath, hc]
    cases front <;> rfl
  rw [hhead, isAbsolute_front h.isFront h.isName.no_slash]

/-! ### Names -/

theorem partsOf_front (hfront : Front front) (hname : Meaningful name) :
    partsOf (front ++ name) = partsOf front ++ [⟨name, front ++ name⟩] := by
  cases hfront with
  | nothing => exact partsOf_alone hname.ne_nil hname.no_slash
  | upTo before =>
    rw [partsOf_slack before (.slash .nil), List.append_assoc, List.singleton_append]
    exact partsOf_behind before hname

theorem Named.filePart? {path : FilePath} (h : Named path front name) :
    filePart? path = some ⟨name, front ++ name⟩ := by
  obtain ⟨tail, htail, hpath⟩ := h.bytes
  have hparts : parts path = partsOf front ++ [⟨name, front ++ name⟩] := by
    have hslack := partsOf_slack (front ++ name) htail
    rw [← hpath] at hslack
    exact hslack.trans (partsOf_front h.isFront h.isName.toMeaningful)
  rw [FilePath.filePart?, hparts, List.getLast?_concat]
  simp [h.isName.ne_dot, h.isName.ne_dots]

/-- A name without its extension. -/
def stem (name : List UInt8) : List UInt8 := name.take ((stemLength? name).getD name.length)

/-- The stem ends before the last dot, unless the name starts there. -/
theorem stem_append {before behind : List UInt8} (hbefore : before ≠ []) (hbehind : dot ∉ behind) :
    stem (before ++ dot :: behind) = before := by
  have htail : ((before ++ dot :: behind).reverse.takeWhile (· != dot)).length = behind.length := by
    rw [List.reverse_append, List.reverse_cons, List.append_assoc,
      List.takeWhile_append_of_pos (by simpa using fun c hc => ne_of_mem_of_not_mem hc hbehind)]
    simp
  have hlength : stemLength? (before ++ dot :: behind) = some before.length := by
    have hpos : 0 < before.length := List.length_pos_iff.mpr hbefore
    rw [stemLength?, htail]
    simp only [List.length_append, List.length_cons]
    rw [if_pos (by omega)]
    congr 1
    omega
  rw [stem, hlength, Option.getD_some, List.take_left]

/-- A name that ends in an extension with a dot has a longer stem than what is before it. -/
theorem stem_append_ne {extension : List UInt8} (h : dot ∈ extension) (name : List UInt8) :
    stem name ++ dot :: extension ≠ name := by
  intro heq
  obtain ⟨back, middle, hsplit, hback⟩ := List.eq_append_cons_of_mem (List.mem_reverse.mpr h)
  have hextension : extension = middle.reverse ++ dot :: back.reverse := by
    rw [← List.reverse_reverse extension, hsplit]
    simp
  have hstem : stem name = stem name ++ dot :: middle.reverse := by
    have hname : name = (stem name ++ dot :: middle.reverse) ++ dot :: back.reverse := by
      rw [List.append_assoc, List.cons_append, ← hextension, heq]
    exact (congrArg stem hname).trans (stem_append (by simp) (by simpa using hback))
  have hlength := congrArg List.length hstem
  simp at hlength

/-- Another extension stands behind the stem of the name. -/
theorem Named.withExtension_eq {path : FilePath} (h : Named path front name) (extension : String) :
    withExtension path extension =
      ⟨front ++ (stem name ++ dot :: (RawText.ofString extension).bytes)⟩ := by
  rw [FilePath.withExtension, h.filePart?]
  dsimp only
  congr 1
  rw [← List.append_assoc, stem]
  congr 1
  cases h : stemLength? name with
  | none => rw [Nat.sub_zero, List.take_length, Option.getD_none, List.take_length]
  | some length =>
    have hle : length ≤ name.length := by
      rw [stemLength?] at h
      split at h
      · cases h
        omega
      · cases h
    have hkept : (front ++ name).length - (name.length - length) = front.length + length := by
      rw [List.length_append]
      omega
    dsimp only
    rw [hkept, List.take_length_add_append, Option.getD_some]

/-- With another extension the path ends in another name behind the same front. -/
theorem Named.sibling {path : FilePath} (h : Named path front name) {extension : String}
    (hslash : slash ∉ (RawText.ofString extension).bytes)
    (hlong : 2 ≤ (RawText.ofString extension).bytes.length) :
    Named (withExtension path extension) front
      (stem name ++ dot :: (RawText.ofString extension).bytes) := by
  have hno : slash ∉ stem name ++ dot :: (RawText.ofString extension).bytes := by
    have hstem : slash ∉ stem name := fun hmem => h.isName.no_slash (List.mem_of_mem_take hmem)
    have hdot : slash ≠ dot := by decide
    simp [hstem, hslash, hdot]
  refine ⟨h.isFront, ⟨⟨by simp, hno, fun heq => ?_⟩, fun heq => ?_⟩, ?_⟩
  · have hlength := congrArg List.length heq
    simp at hlength
    omega
  · have hlength := congrArg List.length heq
    simp at hlength
    omega
  · rw [h.withExtension_eq]
    exact trimEnd_append front (by simp) hno

end KeyLayout.FilePath
