/-
The tree of a YAML document.

A tree is built from tokens.  Where a value is left out there is an empty plain scalar.
An anchor gives its name to the tree behind it, and an alias stands for the tree that
was named last before it; inside of that very tree, an alias has nothing to stand for
yet (`Tree.unfinished`).

There is exactly one tree for a document: a text with several documents is refused.
-/
import KeyLayout.Yaml.Token

namespace KeyLayout.Yaml

open Document

/-- A value of a YAML document with its tag, if it has one. -/
inductive Tree where
  | scalar (tag : Option String) (style : Style) (text : String)
  | list (tag : Option String) (items : List Tree)
  | record (tag : Option String) (members : List (Tree × Tree))
  /-- What an alias stands for inside of the tree that it names. -/
  | unfinished

/-- A scalar that is left out. -/
def Tree.empty : Tree := .scalar none .plain ""

/-- An anchor and the tree that it names. -/
structure Anchored where
  name : String
  tree : Option Tree

/-- What is known while a tree is built. -/
structure Building where
  tokens : List Token
  /-- What the handles of tags stand for. -/
  handles : List (String × String)
  /-- Anchors in the order of the document, the last one first. -/
  anchors : List Anchored

namespace Building

def next (b : Building) : TokenKind :=
  match b.tokens with
  | t :: _ => t.kind
  | [] => .streamEnd

def pass (b : Building) : Building := { b with tokens := b.tokens.drop 1 }

/-- A break at the next token. -/
def stuck {α : Type} (b : Building) (flaw : Flaw) : Except Break α :=
  .error ⟨flaw, (b.tokens.head?.map Token.rest).getD []⟩

/-- Whether one of some tokens comes next. -/
def isAt (b : Building) (kinds : List TokenKind) : Bool := kinds.contains b.next

/-- Gives the tree of an anchor, which has `index` anchors before it. -/
def finishAnchor (b : Building) (index : Nat) (tree : Tree) : Building :=
  { b with anchors := b.anchors.modify (b.anchors.length - 1 - index) fun a => ⟨a.name, some tree⟩ }

/-- The tree that a name stands for. -/
def anchored (b : Building) (name : String) : Except Break Tree :=
  match b.anchors.find? (·.name == name) with
  | some a => .ok (a.tree.getD .unfinished)
  | none => b.stuck .unknownAlias

/-- A tag in full. -/
def fullTag (b : Building) (handle suffix : String) : Except Break String :=
  if handle.isEmpty then .ok suffix
  else
    match b.handles.find? (·.1 == handle) with
    | some (_, start) => .ok (start ++ suffix)
    | none => b.stuck .badName

/-- Reads a tag, if there is one. -/
def takeTag (b : Building) : Except Break (Option String × Building) :=
  match b.next with
  | .tag handle suffix => (b.fullTag handle suffix).map fun tag => (some tag, b.pass)
  | _ => .ok (none, b)

/-- Reads an anchor, if there is one. -/
def takeAnchor (b : Building) : Option String × Building :=
  match b.next with
  | .anchor name => (some name, b.pass)
  | _ => (none, b)

/-- What stands before a value. -/
structure Properties where
  anchor : Option String
  tag : Option String
deriving DecidableEq

/-- Reads an anchor and a tag, in either order. -/
def takeProperties (b : Building) : Except Break (Properties × Building) := do
  let (early, b) := b.takeAnchor
  let (tag, b) ← b.takeTag
  -- an anchor behind the tag counts if none stood before it
  let (late, b) := match early, tag with
    | none, some _ => b.takeAnchor
    | _, _ => (none, b)
  return (⟨early <|> late, tag⟩, b)

/-- Notes that the tree of an anchor begins. -/
def beginAnchor (b : Building) : Option String → Building
  | some name => { b with anchors := ⟨name, none⟩ :: b.anchors }
  | none => b

end Building

/-- How lists and records may begin at some place. -/
inductive Place
  /-- In brackets or braces. -/
  | flow
  /-- Among the lines of a block. -/
  | block
  /-- In a record of a block, where a list may have the indentation of the record. -/
  | member
deriving DecidableEq

open Building in
mutual

/-- Builds the tree of a value; `bound` limits the number of steps. -/
def buildTree : Nat → Place → Building → Except Break (Tree × Building)
  | 0, _, b => b.stuck .tooDeep
  | bound + 1, place, b =>
    match b.next with
    | .alias name => do return (← b.anchored name, b.pass)
    | _ => do
      let (properties, b) ← b.takeProperties
      -- while the tree is built, its anchor is there but has no tree
      let index := b.anchors.length
      let (tree, b) ← buildContent bound place properties (b.beginAnchor properties.anchor)
      return (tree, if properties.anchor.isSome then b.finishAnchor index tree else b)

/-- Builds what stands behind the properties of a value. -/
def buildContent : Nat → Place → Properties → Building → Except Break (Tree × Building)
  | 0, _, _, b => b.stuck .tooDeep
  | bound + 1, place, properties, b =>
    let tag := properties.tag
    let list (r : Except Break (List Tree × Building)) : Except Break (Tree × Building) :=
      r.map fun (items, b) => (.list tag items, b)
    let record (r : Except Break (List (Tree × Tree) × Building)) :
        Except Break (Tree × Building) :=
      r.map fun (members, b) => (.record tag members, b)
    match b.next, place with
    | .dash, .member => list (buildMemberItems bound b)
    | .scalar text style, _ => .ok (.scalar (if tag = some "!" then none else tag) style text, b.pass)
    | .openBracket, _ => list (buildFlowItems bound true b.pass)
    | .openBrace, _ => record (buildFlowMembers bound true b.pass)
    | .blockList, .block => list (buildBlockItems bound b.pass)
    | .blockList, .member => list (buildBlockItems bound b.pass)
    | .blockRecord, .block => record (buildBlockMembers bound b.pass)
    | .blockRecord, .member => record (buildBlockMembers bound b.pass)
    | _, _ =>
      -- an anchor or a tag alone is an empty value
      if properties.anchor.isSome || tag.isSome then
        .ok (.scalar tag .plain "", b)
      else b.stuck .noValue

/-- Builds a value, or an empty one if one of some tokens comes next. -/
def buildUnless : Nat → List TokenKind → Place → Building → Except Break (Tree × Building)
  | 0, _, _, b => b.stuck .tooDeep
  | bound + 1, ends, place, b =>
    if b.isAt ends then .ok (.empty, b) else buildTree bound place b

/-- Builds the items of a list that has the indentation of the record around it. -/
def buildMemberItems : Nat → Building → Except Break (List Tree × Building)
  | 0, b => b.stuck .tooDeep
  | bound + 1, b =>
    match b.next with
    | .dash => do
      let (item, b) ← buildUnless bound [.dash, .name, .value, .blockEnd] .block b.pass
      let (items, b) ← buildMemberItems bound b
      return (item :: items, b)
    | _ => .ok ([], b)

/-- Builds the items of a list in a block. -/
def buildBlockItems : Nat → Building → Except Break (List Tree × Building)
  | 0, b => b.stuck .tooDeep
  | bound + 1, b =>
    match b.next with
    | .dash => do
      let (item, b) ← buildUnless bound [.dash, .blockEnd] .block b.pass
      let (items, b) ← buildBlockItems bound b
      return (item :: items, b)
    | .blockEnd => .ok ([], b.pass)
    | _ => b.stuck .noListComma

/-- Builds the value of a member, which may be left out together with its colon. -/
def buildValue : Nat → List TokenKind → Place → Building → Except Break (Tree × Building)
  | 0, _, _, b => b.stuck .tooDeep
  | bound + 1, ends, place, b =>
    match b.next with
    | .value => buildUnless bound ends place b.pass
    | _ => .ok (.empty, b)

/-- Builds the members of a record in a block. -/
def buildBlockMembers : Nat → Building → Except Break (List (Tree × Tree) × Building)
  | 0, b => b.stuck .tooDeep
  | bound + 1, b =>
    let ends : List TokenKind := [.name, .value, .blockEnd]
    match b.next with
    | .name => do
      let (name, b) ← buildUnless bound ends .member b.pass
      let (value, b) ← buildValue bound ends .member b
      let (members, b) ← buildBlockMembers bound b
      return ((name, value) :: members, b)
    | .blockEnd => .ok ([], b.pass)
    | _ => b.stuck .noRecordComma

/-- Builds the items of a list in brackets. -/
def buildFlowItems : Nat → Bool → Building → Except Break (List Tree × Building)
  | 0, _, b => b.stuck .tooDeep
  | bound + 1, first, b =>
    if b.next = .closeBracket then .ok ([], b.pass)
    else if !first && b.next ≠ .comma then b.stuck .noListComma
    else
      let b := if first then b else b.pass
      match b.next with
      | .closeBracket => .ok ([], b.pass)
      | .name => do
        let b := b.pass
        -- a record of a single member, without braces
        let ends : List TokenKind := [.value, .comma, .closeBracket]
        let (name, b) ←
          if b.isAt ends then pure (Tree.empty, b.pass) else buildTree bound .flow b
        let (value, b) ← buildValue bound [.comma, .closeBracket] .flow b
        let (items, b) ← buildFlowItems bound false b
        return (.record none [(name, value)] :: items, b)
      | _ => do
        let (item, b) ← buildTree bound .flow b
        let (items, b) ← buildFlowItems bound false b
        return (item :: items, b)

/-- Builds the members of a record in braces. -/
def buildFlowMembers : Nat → Bool → Building → Except Break (List (Tree × Tree) × Building)
  | 0, _, b => b.stuck .tooDeep
  | bound + 1, first, b =>
    if b.next = .closeBrace then .ok ([], b.pass)
    else if !first && b.next ≠ .comma then b.stuck .noRecordComma
    else
      let b := if first then b else b.pass
      match b.next with
      | .closeBrace => .ok ([], b.pass)
      | .name => do
        let (name, b) ← buildUnless bound [.value, .comma, .closeBrace] .flow b.pass
        let (value, b) ← buildValue bound [.comma, .closeBrace] .flow b
        let (members, b) ← buildFlowMembers bound false b
        return ((name, value) :: members, b)
      | _ => do
        let (name, b) ← buildTree bound .flow b
        let (members, b) ← buildFlowMembers bound false b
        return ((name, .empty) :: members, b)

end

/-! Documents -/

/-- The handles that every document knows. -/
def commonHandles : List (String × String) := [("!", "!"), ("!!", "tag:yaml.org,2002:")]

/-- Reads the directives before a document. Each may be given once, and the version has to be a
known one. -/
def takeDirectives : Nat → Bool → Building → Except Break Building
  | 0, _, b => .ok b
  | bound + 1, versionGiven, b =>
    match b.next with
    | .version major minor =>
      if versionGiven || major ≠ 1 || (minor ≠ 1 && minor ≠ 2) then b.stuck .badNumber
      else takeDirectives bound true b.pass
    | .tagPrefix handle start =>
      if b.handles.any (·.1 == handle) then b.stuck .repeatedName
      else takeDirectives bound versionGiven { b.pass with handles := b.handles ++ [(handle, start)] }
    | _ => .ok b

/-- Adds the common handles that were not given anew. -/
def withCommonHandles (b : Building) : Building :=
  { b with handles := b.handles ++ commonHandles }

/-- Passes the marks at the end of a document. -/
def passEnds : List Token → List Token
  | [] => []
  | t :: rest => if t.kind = .documentEnd then passEnds rest else t :: rest

/-- Nothing but the end may stand behind a document. -/
def finishDocument (tree : Tree) (b : Building) : Except Break Tree :=
  let rest := passEnds b.tokens
  match rest with
  | [] => .ok tree
  | t :: _ => if t.kind = .streamEnd then .ok tree else .error ⟨.severalDocuments, t.rest⟩

/-- The tree of a document; there is none if there is no document at all. -/
def Tree.ofTokens (tokens : List Token) : Except Break (Option Tree) := do
  let bound := 8 * tokens.length + 8
  let b : Building := ⟨tokens, [], []⟩
  match b.next with
  | .streamEnd => return none
  | .documentStart | .version _ _ | .tagPrefix _ _ =>
    let b ← takeDirectives bound false b
    if b.next ≠ .documentStart then b.stuck .noValue
    else
      let ends : List TokenKind := [.documentStart, .documentEnd, .streamEnd]
      let b := withCommonHandles b.pass
      let isDirective := match b.next with
        | .version _ _ | .tagPrefix _ _ => true
        | _ => false
      let (tree, b) ← if isDirective then pure (Tree.empty, b) else buildUnless bound ends .block b
      return some (← finishDocument tree b)
  | _ =>
    let (tree, b) ← buildTree bound .block (withCommonHandles b)
    return some (← finishDocument tree b)

end KeyLayout.Yaml
