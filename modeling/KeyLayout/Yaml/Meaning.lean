/-
What the scalars of a YAML document mean.

A plain scalar without a tag is nothing, a truth value, a number or a text, by its form
alone; all other scalars are texts.  A reader that looks for a text takes a plain scalar
as it is written, whatever it means.

One of the tags for nothing, truth values and numbers makes a scalar what it says, for
readers that take any value.  A tag of the document's own names a variant.
-/
import KeyLayout.Decimal.Numeral
import KeyLayout.Text.Hexadecimal
import KeyLayout.Yaml.Tree

namespace KeyLayout.Yaml

open Document

/-- Whether a word means nothing. -/
def isNull (text : String) : Bool := ["null", "Null", "NULL", "~"].contains text

/-- The truth value that a word means. -/
def bool? (text : String) : Option Bool :=
  if ["true", "True", "TRUE"].contains text then some true
  else if ["false", "False", "FALSE"].contains text then some false
  else none

/-- Whether a text is made of digits but starts with a needless zero, so that it is no number. -/
def isZeroPadded (text : List Char) : Bool :=
  match text with
  | '-' :: digits => padded digits
  | '+' :: digits => padded digits
  | digits => padded digits
where
  /-- A zero and at least one more digit. -/
  padded : List Char → Bool
    | '0' :: d :: digits => (d :: digits).all Decimal.isDigit
    | _ => false

/-- The number that digits mean in some base. -/
def natural? (base : Nat) (digits : List Char) : Option Nat :=
  if digits.isEmpty then none
  else digits.foldl (fun n c => do
    let n ← n
    let d ← Text.hexValue? c
    if d < base then some (base * n + d) else none) (some 0)

/-- The number that a text without a sign means; a mark may tell its base. -/
def unsigned? (text : List Char) : Option Nat :=
  match text with
  | '0' :: 'x' :: digits => natural? 16 digits
  | '0' :: 'o' :: digits => natural? 8 digits
  | '0' :: 'b' :: digits => natural? 2 digits
  | digits => natural? 10 digits

/-- The integer that a text means. -/
def integer? (text : List Char) : Option Int :=
  if isZeroPadded text then none
  else
    match text with
    | '-' :: digits => (unsigned? digits).map fun n => -(n : Int)
    | '+' :: digits => (unsigned? digits).map fun n => (n : Int)
    | digits => (unsigned? digits).map fun n => (n : Int)

/-- The number with a point, an exponent, or too many digits for an integer, that a text means. -/
def float? (text : List Char) : Option Float :=
  let word := String.ofList text
  let positive := match text with
    | '+' :: rest => rest
    | _ => text
  if [".inf", ".Inf", ".INF"].contains (String.ofList positive) then some (1.0 / 0.0)
  else if ["-.inf", "-.Inf", "-.INF"].contains word then some (-1.0 / 0.0)
  else if [".nan", ".NaN", ".NAN"].contains word then some (0.0 / 0.0)
  else if positive.length < text.length && ["+", "-"].contains (String.ofList (positive.take 1)) then
    none
  else
    match Decimal.readNumeral positive with
    | .ok x => if x.isFinite then some x else none
    | .error _ => none

/-- An integer that no number of 64 bits holds: readers that skip it do not mind. -/
def skippable : Node :=
  let complaint : Complaint := ⟨.flaw .hugeNumber, none⟩
  .broken ⟨complaint, none, complaint, false⟩

/-- A number as a node, if the text means one. -/
def number? (text : List Char) : Option Node :=
  let raw := some (String.ofList text)
  match integer? text with
  | some n =>
    if Decimal.fitsBits 64 n then some (.scalar (.int n) raw none)
    else if Decimal.fitsBits 128 n then
      some (.tagged none (.scalar (.int n) raw none) skippable)
    else (float? text).map fun x => .scalar (.float x) raw none
  | none =>
    if isZeroPadded text then none
    else (float? text).map fun x => .scalar (.float x) raw none

/-- What a plain scalar without a tag means. -/
def plainNode (text : String) : Node :=
  if text.isEmpty || isNull text then .scalar .null (some text) none
  else
    match bool? text with
    | some b => .scalar (.bool b) (some text) none
    | none => (number? text.toList).getD (.ofScalar (.text text))

/-- A scalar without its tag. -/
def untagged (style : Style) (text : String) : Node :=
  if style = .plain then plainNode text else .ofScalar (.text text)

/-- What stands for a scalar that is not what its tag says. -/
def mistagged (text : String) (wanted : String) : Node :=
  let complaint : Complaint := ⟨.wrongKind (.text text) wanted, none⟩
  .broken ⟨complaint, none, complaint, false⟩

/-- What the common tags start with. -/
def commonTag (name : String) : String := "tag:yaml.org,2002:" ++ name

/-- What a scalar with a tag means for readers that take any value. -/
def taggedMeaning (tag : String) (text : String) : Node :=
  if tag = commonTag "bool" then
    match bool? text with
    | some b => .ofScalar (.bool b)
    | none => mistagged text "a boolean"
  else if tag = commonTag "int" then
    match integer? text.toList with
    | some n => .ofScalar (.int n)
    | none => mistagged text "an integer"
  else if tag = commonTag "float" then
    match float? text.toList with
    | some x => .ofScalar (.float x)
    | none => mistagged text "a float"
  else .ofScalar (.text text)

/-- The variant that a tag of the document's own names. -/
def variantName? (tag : String) : Option String :=
  match tag.toList with
  | '!' :: name => some (String.ofList name)
  | _ => none

/-- What stands for a value with a tag of the document's own, for readers that take any value. -/
def variantOnly (name : String) : Node :=
  let complaint : Complaint := ⟨.wrongKind (.text name) "a value without a tag", none⟩
  .broken ⟨complaint, none, complaint, false⟩

/-- A scalar as a node. -/
def scalarNode (tag : Option String) (style : Style) (text : String) : Node :=
  match tag with
  | none => untagged style text
  | some tag =>
    match variantName? tag with
    | some name => .tagged (some name) (untagged style text) (variantOnly name)
    | none =>
      if tag = commonTag "null" then
        if isNull text && style == .plain then .scalar .null (some text) none
        else mistagged text "null"
      else .tagged none (untagged style text) (taggedMeaning tag text)

/-- A list or a record with its tag as a node. -/
def withTag (tag : Option String) (node : Node) : Node :=
  match tag.bind variantName? with
  | some name => .tagged (some name) node (variantOnly name)
  | none => node

/-- The name of a member. Only a scalar can be a name. -/
def Tree.key : Tree → MemberKey
  | .scalar tag style text =>
    let isText := match scalarNode tag style text with
      | .scalar (.text _) _ _ => true
      | .tagged _ _ (.scalar (.text _) _ _) => true
      | _ => false
    ⟨text, isText, none, none, none, none⟩
  | _ => ⟨"", false, some ⟨.flaw .keyNotText, none⟩, none, none, none⟩

/-- What stands for an alias inside of the tree that it names. -/
def endless : Node :=
  let complaint : Complaint := ⟨.flaw .tooDeep, none⟩
  .broken ⟨complaint, none, complaint, false⟩

mutual

/-- A tree as a node. -/
def Tree.node : Tree → Node
  | .scalar tag style text => scalarNode tag style text
  | .list tag items => withTag tag (.list none (itemNodes items) (.closed none) false)
  | .record tag members => withTag tag (.record none (memberNodes members) (.closed none) .never)
  | .unfinished => endless

def itemNodes : List Tree → List (After × Node)
  | [] => []
  | tree :: rest => (⟨none, none⟩, tree.node) :: itemNodes rest

def memberNodes : List (Tree × Tree) → List (MemberKey × Node)
  | [] => []
  | (name, value) :: rest => (name.key, value.node) :: memberNodes rest

end

end KeyLayout.Yaml
