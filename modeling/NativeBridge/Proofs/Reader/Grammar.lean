/-
The grammar of written signatures. A text is cut into tokens, words as far as they go, and blanks may stand in front of every
token but the mark inside a path. Over lists of tokens, a rule for each form says what is written:

    declaration = access base
    access      = nothing | & [' [word]] [mut] | * (mut | const)        an optional part is taken whenever it is there
    base        = ( items ) | path | List < declaration > | Dict < access path , declaration > | Tuple ( items )
    items       = nothing | declaration { , declaration } [,]
    path        = word { :: word }

A path means its last word. How the name of a container may be written is left open: `Head` says which tokens mean which name.

- `Scans`, `TokensOf`: the tokens at the beginning of a text, and those of a whole text.
- `Declares`: the tokens of a declaration and the signature that they declare.
- `Scans.append`, `scans_append_iff`: tokens of parts are the tokens of the whole.
-/
import NativeBridge.Proofs.Reader.Tokens

namespace NativeBridge.Grammar

open Text Reader

/-! ## Tokens -/

/-- a token of a written signature -/
inductive Token where
  | word (text : String)
  | mark (c : Char)
  /-- the mark `::` between the words of a path -/
  | joint
deriving DecidableEq

/-- the characters that are tokens by themselves -/
def marks : List Char := ['&', '\'', '*', '(', ')', '<', '>', ',']

/-- the text begins with these tokens, and this is left behind them -/
inductive Scans : List Char → List Token → List Char → Prop
  | done (s : List Char) : Scans s [] s
  | word {s t rest : List Char} {text : String} {tokens : List Token} (starts : trimStart s = text.toList ++ t)
      (word : IsWord text.toList) (longest : StopsWord t) (more : Scans t tokens rest) :
      Scans s (.word text :: tokens) rest
  | mark {s t rest : List Char} {c : Char} {tokens : List Token} (starts : trimStart s = c :: t) (known : c ∈ marks)
      (more : Scans t tokens rest) : Scans s (.mark c :: tokens) rest
  | joint {t rest : List Char} {tokens : List Token} (more : Scans t tokens rest) :
      Scans (':' :: ':' :: t) (.joint :: tokens) rest

/-- the text consists of these tokens; blanks may stand behind the last one -/
def TokensOf (text : List Char) (tokens : List Token) : Prop := ∃ rest, Scans text tokens rest ∧ trimStart rest = []

/-! ## Rules -/

/-- words with marks between them; they mean the last word -/
inductive WordPath : List Token → String → Prop
  | word (name : String) : WordPath [.word name] name
  | joined (first : String) {tokens : List Token} {name : String} (rest : WordPath tokens name) :
      WordPath (.word first :: .joint :: tokens) name

/-- a single word -/
inductive SingleWord : List Token → String → Prop
  | word (name : String) : SingleWord [.word name] name

/-- the tokens of a lifetime in front of `next`. The tick and the name behind it are taken whenever they are there. -/
inductive LifetimeBefore (next : List Token) : List Token → Prop
  | absent (noTick : next.head? ≠ some (.mark '\'')) : LifetimeBefore next []
  | unnamed (noWord : ∀ word : String, next.head? ≠ some (.word word)) : LifetimeBefore next [.mark '\'']
  | named (name : String) : LifetimeBefore next [.mark '\'', .word name]

/-- the tokens of an access in front of `next`. The word `mut` is taken whenever it is there. -/
inductive AccessBefore (next : List Token) : List Token → Access → Prop
  | owned : AccessBefore next [] .owned
  | borrowed {lifetime : List Token} (before : LifetimeBefore next lifetime) (noMut : next.head? ≠ some (.word "mut")) :
      AccessBefore next (.mark '&' :: lifetime) .borrowed
  | borrowedMut {lifetime : List Token} (before : LifetimeBefore (.word "mut" :: next) lifetime) :
      AccessBefore next (.mark '&' :: (lifetime ++ [.word "mut"])) .borrowedMut
  | rawMut : AccessBefore next [.mark '*', .word "mut"] .rawMut
  | rawConst : AccessBefore next [.mark '*', .word "const"] .rawConst

/-- the signature with the access written in front of it, if one is -/
def reached (access : Access) (s : Signature) : Signature := if access = .owned then s else { s with access }

/-- what declarations in parentheses mean: nothing is no value, a single one without a comma is itself, all else is a tuple -/
def enclosed : List Signature → Bool → Signature
  | [], _ => .owned .void
  | [single], false => single
  | several, _ => .owned (.tuple several)

section Rules

variable (Head : List Token → String → Prop)

mutual

/-- the tokens of a declaration -/
inductive Declares : List Token → Signature → Prop
  | intro {front tokens : List Token} {access : Access} {s : Signature} (before : AccessBefore tokens front access)
      (base : DeclaresBase tokens s) : Declares (front ++ tokens) (reached access s)

/-- the tokens of a declaration without its access -/
inductive DeclaresBase : List Token → Signature → Prop
  | enclosed {tokens : List Token} {elems : List Signature} {comma : Bool} (items : DeclaresItems tokens elems comma) :
      DeclaresBase (.mark '(' :: (tokens ++ [.mark ')'])) (enclosed elems comma)
  | named {tokens : List Token} {name : String} {shape : Shape} (path : WordPath tokens name)
      (known : named? name = some shape) : DeclaresBase tokens (.owned shape)
  | list {head tokens : List Token} {name : String} {elem : Signature} (named : Head head name)
      (container : name = "List" ∨ name = "WireList") (inner : Declares tokens elem) (solid : elem.isVoid = false) :
      DeclaresBase (head ++ .mark '<' :: (tokens ++ [.mark '>'])) (.owned (.list elem))
  | dict {head front key tokens : List Token} {name keyName : String} {access : Access} {kind : KeyKind}
      {value : Signature} (named : Head head name) (container : name = "Dict" ∨ name = "WireDict")
      (before : AccessBefore key front access) (path : WordPath key keyName) (hashable : KeyKind.ofName? keyName = some kind)
      (inner : Declares tokens value) (solid : value.isVoid = false) :
      DeclaresBase (head ++ .mark '<' :: (front ++ (key ++ .mark ',' :: (tokens ++ [.mark '>']))))
        (.owned (.dict kind value))
  | tuple {head tokens : List Token} {name : String} {elems : List Signature} {comma : Bool} (named : Head head name)
      (container : name = "Tuple" ∨ name = "WireTuple") (items : DeclaresItems tokens elems comma) :
      DeclaresBase (head ++ .mark '(' :: (tokens ++ [.mark ')'])) (.owned (.tuple elems))

/-- the tokens of declarations with commas between them, none of them void; the flag tells of a comma behind the last one -/
inductive DeclaresItems : List Token → List Signature → Bool → Prop
  | none : DeclaresItems [] [] false
  | last {tokens : List Token} {s : Signature} (inner : Declares tokens s) (solid : s.isVoid = false) :
      DeclaresItems tokens [s] false
  | lastComma {tokens : List Token} {s : Signature} (inner : Declares tokens s) (solid : s.isVoid = false) :
      DeclaresItems (tokens ++ [.mark ',']) [s] true
  | more {tokens others : List Token} {s second : Signature} {rest : List Signature} {comma : Bool}
      (inner : Declares tokens s) (solid : s.isVoid = false) (items : DeclaresItems others (second :: rest) comma) :
      DeclaresItems (tokens ++ .mark ',' :: others) (s :: second :: rest) comma

end

end Rules

/-! ## Tokens of parts and of the whole -/

variable {s t rest middle : List Char} {tokens others : List Token} {c : Char} {text : String}

theorem Scans.append (first : Scans s tokens middle) (second : Scans middle others rest) :
    Scans s (tokens ++ others) rest := by
  induction first with
  | done s => exact second
  | word starts word longest _ ih => exact .word starts word longest (ih second)
  | mark starts known _ ih => exact .mark starts known (ih second)
  | joint _ ih => exact .joint (ih second)

theorem scans_append_iff : Scans s (tokens ++ others) rest ↔ ∃ middle, Scans s tokens middle ∧ Scans middle others rest := by
  constructor
  · intro h
    induction tokens generalizing s with
    | nil => exact ⟨s, .done s, h⟩
    | cons token tokens ih =>
      cases h with
      | word starts word longest more =>
        obtain ⟨middle, first, second⟩ := ih more
        exact ⟨middle, .word starts word longest first, second⟩
      | mark starts known more =>
        obtain ⟨middle, first, second⟩ := ih more
        exact ⟨middle, .mark starts known first, second⟩
      | joint more =>
        obtain ⟨middle, first, second⟩ := ih more
        exact ⟨middle, .joint first, second⟩
  · rintro ⟨middle, first, second⟩
    exact first.append second

theorem scans_nil_iff : Scans s [] rest ↔ s = rest := by
  constructor
  · rintro ⟨⟩
    rfl
  · rintro rfl
    exact .done s

theorem scans_mark_iff : Scans s (.mark c :: tokens) rest ↔
    c ∈ marks ∧ ∃ t, trimStart s = c :: t ∧ Scans t tokens rest := by
  constructor
  · intro h
    cases h with
    | mark starts known more => exact ⟨known, _, starts, more⟩
  · rintro ⟨known, t, starts, more⟩
    exact .mark starts known more

theorem scans_word_iff : Scans s (.word text :: tokens) rest ↔
    IsWord text.toList ∧ ∃ t, trimStart s = text.toList ++ t ∧ StopsWord t ∧ Scans t tokens rest := by
  constructor
  · intro h
    cases h with
    | word starts word longest more => exact ⟨word, _, starts, longest, more⟩
  · rintro ⟨word, t, starts, longest, more⟩
    exact .word starts word longest more

theorem scans_joint_iff : Scans s (.joint :: tokens) rest ↔ ∃ t, s = ':' :: ':' :: t ∧ Scans t tokens rest := by
  constructor
  · intro h
    cases h with
    | joint more => exact ⟨_, rfl, more⟩
  · rintro ⟨t, rfl, more⟩
    exact .joint more

end NativeBridge.Grammar
