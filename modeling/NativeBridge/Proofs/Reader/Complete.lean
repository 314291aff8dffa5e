/-
What is written by the rules of the grammar is taken by the readers, and read as what the rules say. A reader stops where the
tokens of its form end: behind them stands a token that is no part of the form, or the end of the text.

- `char?_of_scans`, `char?_eq_none_of_scans`: the next token decides what the readers of single tokens do.
- `path_complete`, `access_complete`: a path or an access is read up to its last token.
- `Ended`: the end of a text, or a mark that stands behind a declaration.
- `readAs_of_declares`: a declaration is read as what it declares, by induction on the rules.
- `read_of_declares`: so it is with a whole text.
-/
import NativeBridge.Proofs.Reader.Grammar
import NativeBridge.Proofs.Reader.Written

namespace NativeBridge.Grammar

open Text Reader

variable {s rest : List Char} {c : Char} {token : Token} {tokens next : List Token}

/-! ## The next token -/

theorem not_wordChar_of_mem_marks (known : c ∈ marks) : isWordChar c = false ∧ c ≠ ':' := by
  have all : marks.all (fun c => !isWordChar c && c != ':') = true := by decide
  simpa using List.all_eq_true.1 all c known

theorem char?_of_scans (scans : Scans s (.mark c :: tokens) rest) :
    ∃ left, char? c s = some left ∧ Scans left.1 tokens rest := by
  obtain ⟨-, t, starts, more⟩ := scans_mark_iff.1 scans
  obtain ⟨left, reads, leaves⟩ := char?_of_trimStart starts
  exact ⟨left, reads, leaves ▸ more⟩

theorem word?_of_scans {text : String} (scans : Scans s (.word text :: tokens) rest) :
    ∃ left, word? s = some (text.toList, left) ∧ Scans left.1 tokens rest := by
  obtain ⟨word, t, starts, longest, more⟩ := scans_word_iff.1 scans
  obtain ⟨left, reads, leaves⟩ := word?_of_trimStart word longest starts
  exact ⟨left, reads, leaves ▸ more⟩

theorem keyword?_of_scans {keyword : String} (scans : Scans s (.word keyword :: tokens) rest) :
    ∃ left, keyword? keyword s = some left ∧ Scans left.1 tokens rest := by
  obtain ⟨word, t, starts, longest, more⟩ := scans_word_iff.1 scans
  obtain ⟨left, reads, leaves⟩ := keyword?_of_trimStart word longest starts
  exact ⟨left, reads, leaves ▸ more⟩

theorem pathMark?_of_scans (scans : Scans s (.joint :: tokens) rest) :
    ∃ left, pathMark? s = some left ∧ Scans left.1 tokens rest := by
  obtain ⟨t, rfl, more⟩ := scans_joint_iff.1 scans
  exact ⟨_, rfl, more⟩

/-- the first character of the next token -/
theorem trimStart_of_scans (scans : Scans s (token :: tokens) rest) :
    (∃ text c t, token = .word text ∧ trimStart s = c :: t ∧ isWordChar c = true) ∨
      (∃ c t, token = .mark c ∧ trimStart s = c :: t ∧ c ∈ marks) ∨
      ∃ t, token = .joint ∧ s = ':' :: ':' :: t := by
  cases token with
  | word text =>
    obtain ⟨word, t, starts, -⟩ := scans_word_iff.1 scans
    obtain ⟨c, cs, chars⟩ := List.exists_cons_of_ne_nil word.1
    rw [chars, List.cons_append] at starts
    have first : isWordChar c = true := word.chars c (chars ▸ List.mem_cons_self)
    exact .inl ⟨text, c, _, rfl, starts, first⟩
  | mark c =>
    obtain ⟨known, t, starts, -⟩ := scans_mark_iff.1 scans
    exact .inr (.inl ⟨c, t, rfl, starts, known⟩)
  | joint =>
    obtain ⟨t, starts, -⟩ := scans_joint_iff.1 scans
    exact .inr (.inr ⟨t, rfl, starts⟩)

theorem char?_eq_none_of_scans (known : c ∈ marks) (scans : Scans s (token :: tokens) rest) (other : token ≠ .mark c) :
    char? c s = none := by
  obtain ⟨noWord, noColon⟩ := not_wordChar_of_mem_marks known
  apply char?_eq_none
  intro head
  rcases trimStart_of_scans scans with ⟨text, d, t, rfl, starts, word⟩ | ⟨d, t, rfl, starts, -⟩ | ⟨t, rfl, rfl⟩
  · rw [starts] at head
    obtain rfl : d = c := by simpa using head
    rw [noWord] at word
    cases word
  · rw [starts] at head
    obtain rfl : d = c := by simpa using head
    exact other rfl
  · rw [trimStart_cons (by decide)] at head
    exact noColon (by simpa using head.symm)

theorem word?_eq_none_of_scans (scans : Scans s (token :: tokens) rest) (other : ∀ text : String, token ≠ .word text) :
    word? s = none := by
  apply word?_eq_none
  intro d head
  rcases trimStart_of_scans scans with ⟨text, c, t, rfl, -⟩ | ⟨c, t, rfl, starts, known⟩ | ⟨t, rfl, rfl⟩
  · exact absurd rfl (other text)
  · rw [starts] at head
    obtain rfl : c = d := by simpa using head
    exact (not_wordChar_of_mem_marks known).1
  · rw [trimStart_cons (by decide)] at head
    obtain rfl : ':' = d := by simpa using head
    decide

theorem keyword?_eq_none_of_scans {keyword : String} (scans : Scans s (token :: tokens) rest)
    (other : token ≠ .word keyword) : keyword? keyword s = none := by
  cases token with
  | word text =>
    obtain ⟨left, reads, -⟩ := word?_of_scans scans
    have differ : text.toList ≠ keyword.toList := by
      intro same
      exact other (congrArg Token.word (String.toList_inj.1 same))
    simp [keyword?, reads, differ]
  | mark c => simp [keyword?, word?_eq_none_of_scans scans (by simp)]
  | joint => simp [keyword?, word?_eq_none_of_scans scans (by simp)]

theorem pathMark?_eq_none_of_ne (h : (trimStart s).head? ≠ some ':') : pathMark? s = none := by
  unfold pathMark?
  split
  · next t =>
    rw [trimStart_cons (by decide)] at h
    exact absurd rfl h
  · rfl

theorem pathMark?_eq_none_of_scans (scans : Scans s (token :: tokens) rest) (other : token ≠ .joint) :
    pathMark? s = none := by
  apply pathMark?_eq_none_of_ne
  intro head
  rcases trimStart_of_scans scans with ⟨text, c, t, rfl, starts, word⟩ | ⟨c, t, rfl, starts, known⟩ | ⟨t, rfl, rfl⟩
  · rw [starts] at head
    obtain rfl : c = ':' := by simpa using head
    exact absurd word (by decide)
  · rw [starts] at head
    obtain rfl : c = ':' := by simpa using head
    exact absurd known (by decide)
  · exact other rfl

/-! ## Paths and accesses -/

theorem path_complete (source : List Char) {name : String} (path : WordPath tokens name) (scans : Scans s tokens rest)
    (stop : pathMark? rest = none) : ∃ left, Reader.path source s = .ok (name, left) ∧ left.1 = rest := by
  induction path generalizing s with
  | word name =>
    obtain ⟨left, reads, more⟩ := word?_of_scans scans
    obtain rfl := scans_nil_iff.1 more
    refine ⟨left, ?_, rfl⟩
    rw [Reader.path]
    simp [reads, stop]
  | joined first others ih =>
    obtain ⟨afterWord, readsWord, more⟩ := word?_of_scans scans
    obtain ⟨mark, readsMark, more⟩ := pathMark?_of_scans more
    obtain ⟨left, reads, leaves⟩ := ih (s := (afterWord.andRead mark).1) more
    refine ⟨(afterWord.andRead mark).andRead left, ?_, leaves⟩
    rw [Reader.path]
    simp only [readsWord, readsMark, reads]
    rfl

theorem skipLifetime_complete {lifetime : List Token} (before : LifetimeBefore next lifetime) (more : next ≠ [])
    (scans : Scans s (lifetime ++ next) rest) : Scans (skipLifetime s).1 next rest := by
  obtain ⟨token, others, rfl⟩ := List.exists_cons_of_ne_nil more
  unfold skipLifetime
  cases before with
  | absent noTick =>
    have none : char? '\'' s = none := char?_eq_none_of_scans (by decide) scans (by simpa using noTick)
    rw [none]
    exact scans
  | unnamed noWord =>
    obtain ⟨afterTick, reads, scans⟩ := char?_of_scans scans
    have none : word? afterTick.1 = none := word?_eq_none_of_scans scans (by simpa using noWord)
    simp only [reads, none]
    exact scans
  | named name =>
    obtain ⟨afterTick, reads, scans⟩ := char?_of_scans scans
    obtain ⟨left, readsName, scans⟩ := word?_of_scans scans
    simp only [reads, readsName]
    exact scans

/-- the next token is one that a shape or a key can begin with -/
def BeginsBase (token : Token) : Prop := (∃ text : String, token = .word text) ∨ token = .mark '('

theorem access_complete (source : List Char) {front : List Token} {a : Access} (before : AccessBefore next front a)
    (begins : ∃ token others, next = token :: others ∧ BeginsBase token) (scans : Scans s (front ++ next) rest) :
    ∃ left, access source s = .ok (a, left) ∧ Scans left.1 next rest := by
  obtain ⟨token, others, rfl, kind⟩ := begins
  cases before with
  | owned =>
    have noAmp : char? '&' s = none := char?_eq_none_of_scans (by decide) scans (by rcases kind with ⟨_, rfl⟩ | rfl <;> simp)
    have noStar : char? '*' s = none := char?_eq_none_of_scans (by decide) scans (by rcases kind with ⟨_, rfl⟩ | rfl <;> simp)
    exact ⟨.all s, by simp only [access, noAmp, noStar], scans⟩
  | borrowed lifetime noMut =>
    obtain ⟨amp, readsAmp, scans⟩ := char?_of_scans scans
    have scans := skipLifetime_complete lifetime (by simp) scans
    have none : keyword? "mut" (amp.andThen (skipLifetime amp.1)).1 = none :=
      keyword?_eq_none_of_scans scans (by simpa using noMut)
    exact ⟨(amp.andThen (skipLifetime amp.1)).weaken, by simp only [access, readsAmp, none], scans⟩
  | borrowedMut lifetime =>
    rw [List.cons_append, List.append_assoc] at scans
    obtain ⟨amp, readsAmp, scans⟩ := char?_of_scans scans
    have scans := skipLifetime_complete lifetime (by simp) scans
    obtain ⟨left, readsMut, scans⟩ := keyword?_of_scans (s := (amp.andThen (skipLifetime amp.1)).1) scans
    exact ⟨((amp.andThen (skipLifetime amp.1)).andRead left).weaken, by simp only [access, readsAmp, readsMut], scans⟩
  | rawMut =>
    have noAmp : char? '&' s = none := char?_eq_none_of_scans (by decide) scans (by simp)
    obtain ⟨star, readsStar, scans⟩ := char?_of_scans scans
    obtain ⟨left, readsMut, scans⟩ := keyword?_of_scans scans
    exact ⟨(star.andRead left).weaken, by simp only [access, noAmp, readsStar, readsMut], scans⟩
  | rawConst =>
    have noAmp : char? '&' s = none := char?_eq_none_of_scans (by decide) scans (by simp)
    obtain ⟨star, readsStar, scans⟩ := char?_of_scans scans
    have noMut : keyword? "mut" star.1 = none := keyword?_eq_none_of_scans scans (by simp)
    obtain ⟨left, readsConst, scans⟩ := keyword?_of_scans scans
    exact ⟨(star.andRead left).weaken, by simp only [access, noAmp, readsStar, noMut, readsConst], scans⟩

/-! ## What stands behind a declaration -/

/-- the text ends here but for blanks, or goes on with a mark that stands behind a declaration -/
def Ended (rest : List Char) : Prop := ∀ c ∈ (trimStart rest).head?, c ∈ [',', ')', '>']

theorem ended_of_scans (scans : Scans s (.mark c :: tokens) rest) (closing : c ∈ [',', ')', '>']) : Ended s := by
  obtain ⟨-, t, starts, -⟩ := scans_mark_iff.1 scans
  intro d head
  rw [starts] at head
  obtain rfl : c = d := by simpa using head
  exact closing

theorem ended_of_blank (blank : trimStart rest = []) : Ended rest := by
  intro c head
  rw [blank] at head
  cases head

theorem Ended.char?_eq_none (ended : Ended rest) (other : c ∉ [',', ')', '>']) : char? c rest = none :=
  Reader.char?_eq_none fun head => other (ended c head)

theorem Ended.pathMark?_eq_none (ended : Ended rest) : pathMark? rest = none :=
  pathMark?_eq_none_of_ne fun head => absurd (ended ':' head) (by decide)

/-! ## How declarations begin -/

theorem WordPath.begins {name : String} (path : WordPath tokens name) :
    ∃ token others, tokens = token :: others ∧ BeginsBase token := by
  cases path with
  | word name => exact ⟨_, _, rfl, .inl ⟨name, rfl⟩⟩
  | joined first others => exact ⟨_, _, rfl, .inl ⟨first, rfl⟩⟩

theorem begins_of_declaresBase {g : Signature} (h : DeclaresBase WordPath tokens g) :
    ∃ token others, tokens = token :: others ∧ BeginsBase token := by
  cases h with
  | enclosed items => exact ⟨_, _, rfl, .inr rfl⟩
  | named path known => exact path.begins
  | list named container inner solid =>
    obtain ⟨token, others, rfl, begins⟩ := named.begins
    exact ⟨token, _, rfl, begins⟩
  | dict named container before path hashable inner solid =>
    obtain ⟨token, others, rfl, begins⟩ := named.begins
    exact ⟨token, _, rfl, begins⟩
  | tuple named container items =>
    obtain ⟨token, others, rfl, begins⟩ := named.begins
    exact ⟨token, _, rfl, begins⟩

/-- No declaration begins with a closing parenthesis. -/
theorem begins_of_declares {g : Signature} (h : Declares WordPath tokens g) :
    ∃ token others, tokens = token :: others ∧ token ≠ .mark ')' := by
  cases h with
  | intro before base =>
    cases before with
    | owned =>
      obtain ⟨token, others, rfl, begins⟩ := begins_of_declaresBase base
      refine ⟨token, others, rfl, ?_⟩
      rintro rfl
      rcases begins with ⟨text, h⟩ | h <;> simp at h
    | borrowed _ _ => exact ⟨_, _, rfl, by simp⟩
    | borrowedMut _ => exact ⟨_, _, rfl, by simp⟩
    | rawMut => exact ⟨_, _, rfl, by simp⟩
    | rawConst => exact ⟨_, _, rfl, by simp⟩

theorem begins_of_declaresItems {elems : List Signature} {comma : Bool} (h : DeclaresItems WordPath tokens elems comma)
    (some : elems ≠ []) : ∃ token others, tokens = token :: others ∧ token ≠ .mark ')' := by
  cases h with
  | none => exact absurd rfl some
  | last inner _ => exact begins_of_declares inner
  | lastComma inner _ =>
    obtain ⟨token, others, rfl, other⟩ := begins_of_declares inner
    exact ⟨token, _, rfl, other⟩
  | more inner _ _ =>
    obtain ⟨token, others, rfl, other⟩ := begins_of_declares inner
    exact ⟨token, _, rfl, other⟩

/-! ## Declarations -/

/-- wherever these tokens stand in front of the end of a declaration, they are read as this signature -/
def ReadAs (tokens : List Token) (g : Signature) : Prop := ∀ source s rest, Scans s tokens rest → Ended rest →
  ∃ left, declaration source s = .ok (g, left) ∧ left.1 = rest

/-- the same without an access -/
def BaseReadAs (tokens : List Token) (g : Signature) : Prop := ∀ source s rest, Scans s tokens rest → Ended rest →
  ∃ left, base source s = .ok (g, left) ∧ left.1 = rest

/-- wherever these tokens stand in front of a closing parenthesis, they are read as these signatures -/
def ItemsReadAs (tokens : List Token) (elems : List Signature) (comma : Bool) : Prop := ∀ source s rest,
  Scans s (tokens ++ [.mark ')']) rest → ∃ left, list source s = .ok (elems, comma, left) ∧ left.1 = rest

theorem ReadAs.nested {g : Signature} (readAs : ReadAs tokens g) (source : List Char) (solid : g.isVoid = false)
    (scans : Scans s tokens rest) (ended : Ended rest) : ∃ left, nested source s = .ok (g, left) ∧ left.1 = rest := by
  obtain ⟨left, reads, leaves⟩ := readAs source s rest scans ended
  refine ⟨left, ?_, leaves⟩
  rw [Reader.nested, reads]
  simp [ok_bind, solid]

theorem readAs_intro {front : List Token} {a : Access} {g : Signature} (before : AccessBefore tokens front a)
    (base : DeclaresBase WordPath tokens g) (inner : BaseReadAs tokens g) : ReadAs (front ++ tokens) (reached a g) := by
  intro source s rest scans ended
  obtain ⟨afterAccess, readsAccess, scans⟩ := access_complete source before (begins_of_declaresBase base) scans
  obtain ⟨left, reads, leaves⟩ := inner source _ rest scans ended
  refine ⟨afterAccess.andRead left, ?_, leaves⟩
  rw [declaration, readsAccess, ok_bind]
  simp only [reads, ok_bind]
  rfl

theorem baseReadAs_enclosed {elems : List Signature} {comma : Bool} (items : ItemsReadAs tokens elems comma) :
    BaseReadAs (.mark '(' :: (tokens ++ [.mark ')'])) (enclosed elems comma) := by
  intro source s rest scans ended
  obtain ⟨inner, readsOpen, scans⟩ := char?_of_scans scans
  obtain ⟨left, reads, leaves⟩ := items source _ rest scans
  refine ⟨inner.andRead left, ?_, leaves⟩
  rw [base]
  simp only [readsOpen, reads, ok_bind]
  rfl

/-- A base that begins with a path does not begin with a parenthesis, and the path is read up to the token behind it. -/
theorem base_path_complete (source : List Char) {middle : List Char} {name : String} (path : WordPath tokens name)
    (scans : Scans s tokens middle) (stop : pathMark? middle = none) :
    char? '(' s = none ∧ ∃ left, Reader.path source s = .ok (name, left) ∧ left.1 = middle := by
  refine ⟨?_, path_complete source path scans stop⟩
  cases path with
  | word name => exact char?_eq_none_of_scans (by decide) scans (by simp)
  | joined first others => exact char?_eq_none_of_scans (by decide) scans (by simp)

theorem baseReadAs_named {name : String} {shape : Shape} (path : WordPath tokens name) (known : named? name = some shape) :
    BaseReadAs tokens (.owned shape) := by
  intro source s rest scans ended
  obtain ⟨noParen, left, reads, leaves⟩ := base_path_complete source path scans ended.pathMark?_eq_none
  have noAngle : char? '<' left.1 = none := leaves ▸ ended.char?_eq_none (by decide)
  have noTuple : char? '(' left.1 = none := leaves ▸ ended.char?_eq_none (by decide)
  refine ⟨left, ?_, leaves⟩
  rw [base]
  simp only [noParen, reads, ok_bind, noAngle, noTuple, ite_self, known]

theorem baseReadAs_list {head : List Token} {name : String} {elem : Signature} (named : WordPath head name)
    (container : name = "List" ∨ name = "WireList") (inner : ReadAs tokens elem) (solid : elem.isVoid = false) :
    BaseReadAs (head ++ .mark '<' :: (tokens ++ [.mark '>'])) (.owned (.list elem)) := by
  intro source s rest scans ended
  obtain ⟨middle, scansHead, scans⟩ := scans_append_iff.1 scans
  obtain ⟨noParen, afterName, readsName, rfl⟩ :=
    base_path_complete source named scansHead (pathMark?_eq_none_of_scans scans (by simp))
  obtain ⟨mark, readsMark, scans⟩ := char?_of_scans scans
  obtain ⟨middle, scansElem, scans⟩ := scans_append_iff.1 scans
  obtain ⟨afterElem, readsElem, rfl⟩ :=
    inner.nested (s := (afterName.andRead mark).1) source solid scansElem (ended_of_scans scans (by decide))
  obtain ⟨last, readsLast, scans⟩ := char?_of_scans scans
  refine ⟨((afterName.andRead mark).andRead afterElem).andRead last, ?_, scans_nil_iff.1 scans⟩
  rw [base]
  simp only [noParen, readsName, ok_bind, readsMark, if_pos container, readsElem, expect, readsLast]

theorem baseReadAs_dict {head front key : List Token} {name keyName : String} {a : Access} {kind : KeyKind}
    {value : Signature} (named : WordPath head name) (container : name = "Dict" ∨ name = "WireDict")
    (before : AccessBefore key front a) (path : WordPath key keyName) (hashable : KeyKind.ofName? keyName = some kind)
    (inner : ReadAs tokens value) (solid : value.isVoid = false) :
    BaseReadAs (head ++ .mark '<' :: (front ++ (key ++ .mark ',' :: (tokens ++ [.mark '>'])))) (.owned (.dict kind value)) := by
  intro source s rest scans ended
  obtain ⟨middle, scansHead, scans⟩ := scans_append_iff.1 scans
  obtain ⟨noParen, afterName, readsName, rfl⟩ :=
    base_path_complete source named scansHead (pathMark?_eq_none_of_scans scans (by simp))
  obtain ⟨mark, readsMark, scans⟩ := char?_of_scans scans
  rw [← List.append_assoc] at scans
  obtain ⟨middle, scansKey, scans⟩ := scans_append_iff.1 scans
  obtain ⟨keyStart, readsAccess, scansKey⟩ :=
    access_complete (s := (afterName.andRead mark).1) source before path.begins scansKey
  obtain ⟨afterKey, readsKey, rfl⟩ :=
    path_complete source path scansKey (pathMark?_eq_none_of_scans scans (by simp))
  obtain ⟨comma, readsComma, scans⟩ := char?_of_scans scans
  obtain ⟨middle, scansValue, scans⟩ := scans_append_iff.1 scans
  let valueStart := ((afterName.andRead mark).andRead (keyStart.andRead afterKey)).andRead comma
  obtain ⟨afterValue, readsValue, rfl⟩ :=
    inner.nested (s := valueStart.1) source solid scansValue (ended_of_scans scans (by decide))
  obtain ⟨last, readsLast, scans⟩ := char?_of_scans scans
  have noList : ¬ (name = "List" ∨ name = "WireList") := by rcases container with rfl | rfl <;> decide
  have kindOk : keyKind keyName = .ok kind := by rw [keyKind, hashable]
  refine ⟨(valueStart.andRead afterValue).andRead last, ?_, scans_nil_iff.1 scans⟩
  rw [base]
  simp only [noParen, readsName, ok_bind, readsMark, if_neg noList, if_pos container, readsAccess, readsKey, kindOk,
    expect, readsComma]
  rw [readsValue, ok_bind]
  simp only [readsLast]
  rfl

theorem baseReadAs_tuple {head : List Token} {name : String} {elems : List Signature} {comma : Bool}
    (named : WordPath head name) (container : name = "Tuple" ∨ name = "WireTuple") (items : ItemsReadAs tokens elems comma) :
    BaseReadAs (head ++ .mark '(' :: (tokens ++ [.mark ')'])) (.owned (.tuple elems)) := by
  intro source s rest scans ended
  obtain ⟨middle, scansHead, scans⟩ := scans_append_iff.1 scans
  obtain ⟨noParen, afterName, readsName, rfl⟩ :=
    base_path_complete source named scansHead (pathMark?_eq_none_of_scans scans (by simp))
  have noAngle : char? '<' afterName.1 = none := char?_eq_none_of_scans (by decide) scans (by simp)
  obtain ⟨mark, readsMark, scans⟩ := char?_of_scans scans
  obtain ⟨left, reads, leaves⟩ := items source (afterName.andRead mark).1 rest scans
  refine ⟨(afterName.andRead mark).andRead left, ?_, leaves⟩
  rw [base]
  simp only [noParen, readsName, ok_bind, noAngle, if_pos container, readsMark, reads]

theorem itemsReadAs_none : ItemsReadAs [] [] false := by
  intro source s rest scans
  obtain ⟨left, reads, scans⟩ := char?_of_scans scans
  refine ⟨left, ?_, scans_nil_iff.1 scans⟩
  rw [list]
  simp only [reads]

/-- no item begins with a closing parenthesis, so the list does not end in front of one -/
theorem no_close_of_begins {more : List Token} (begins : ∃ token others, tokens = token :: others ∧ token ≠ .mark ')')
    (scans : Scans s (tokens ++ more) rest) : char? ')' s = none := by
  obtain ⟨token, others, rfl, other⟩ := begins
  exact char?_eq_none_of_scans (by decide) scans other

theorem itemsReadAs_last {g : Signature} (declares : Declares WordPath tokens g) (inner : ReadAs tokens g)
    (solid : g.isVoid = false) : ItemsReadAs tokens [g] false := by
  intro source s rest scans
  have noClose := no_close_of_begins (begins_of_declares declares) scans
  obtain ⟨middle, scansItem, scans⟩ := scans_append_iff.1 scans
  obtain ⟨afterItem, readsItem, rfl⟩ := inner.nested source solid scansItem (ended_of_scans scans (by decide))
  have noComma : char? ',' afterItem.1 = none := char?_eq_none_of_scans (by decide) scans (by simp)
  obtain ⟨last, readsLast, scans⟩ := char?_of_scans scans
  refine ⟨afterItem.andRead last, ?_, scans_nil_iff.1 scans⟩
  rw [list]
  simp only [noClose, readsItem, ok_bind, noComma, expect, readsLast]

theorem itemsReadAs_lastComma {g : Signature} (declares : Declares WordPath tokens g) (inner : ReadAs tokens g)
    (solid : g.isVoid = false) : ItemsReadAs (tokens ++ [.mark ',']) [g] true := by
  intro source s rest scans
  rw [List.append_assoc] at scans
  have noClose := no_close_of_begins (begins_of_declares declares) scans
  obtain ⟨middle, scansItem, scans⟩ := scans_append_iff.1 scans
  obtain ⟨afterItem, readsItem, rfl⟩ := inner.nested source solid scansItem (ended_of_scans scans (by decide))
  obtain ⟨comma, readsComma, scans⟩ := char?_of_scans scans
  obtain ⟨last, readsLast, scans⟩ := char?_of_scans scans
  refine ⟨(afterItem.andRead comma).andRead last, ?_, scans_nil_iff.1 scans⟩
  rw [list]
  simp only [noClose, readsItem, ok_bind, readsComma]
  rw [show char? ')' (afterItem.andRead comma).1 = _ from readsLast]

theorem itemsReadAs_more {others : List Token} {g second : Signature} {elems : List Signature} {comma : Bool}
    (declares : Declares WordPath tokens g) (items : DeclaresItems WordPath others (second :: elems) comma)
    (inner : ReadAs tokens g) (solid : g.isVoid = false) (more : ItemsReadAs others (second :: elems) comma) :
    ItemsReadAs (tokens ++ .mark ',' :: others) (g :: second :: elems) comma := by
  intro source s rest scans
  rw [List.append_assoc] at scans
  have noClose := no_close_of_begins (begins_of_declares declares) scans
  obtain ⟨middle, scansItem, scans⟩ := scans_append_iff.1 scans
  obtain ⟨afterItem, readsItem, rfl⟩ := inner.nested source solid scansItem (ended_of_scans scans (by decide))
  obtain ⟨separator, readsComma, scans⟩ := char?_of_scans scans
  have noEnd : char? ')' (afterItem.andRead separator).1 = none :=
    no_close_of_begins (begins_of_declaresItems items (List.cons_ne_nil second elems)) scans
  obtain ⟨left, reads, leaves⟩ := more source (afterItem.andRead separator).1 rest scans
  refine ⟨(afterItem.andRead separator).andRead left, ?_, leaves⟩
  rw [list]
  simp only [noClose, readsItem, ok_bind, readsComma, noEnd, reads]

/-- A declaration is read as what it declares, by induction on the rules; the lemmas above are its cases. -/
theorem readAs_of_declares {g : Signature} (h : Declares WordPath tokens g) : ReadAs tokens g := by
  refine @Declares.rec WordPath (fun tokens g _ => ReadAs tokens g) (fun tokens g _ => BaseReadAs tokens g)
    (fun tokens elems comma _ => ItemsReadAs tokens elems comma) ?_ ?_ ?_ ?_ ?_ ?_ ?_ ?_ ?_ ?_ tokens g h
  · intro front tokens a g before base inner
    exact readAs_intro before base inner
  · intro tokens elems comma _ items
    exact baseReadAs_enclosed items
  · intro tokens name shape path known
    exact baseReadAs_named path known
  · intro head tokens name elem named container _ solid inner
    exact baseReadAs_list named container inner solid
  · intro head front key tokens name keyName a kind value named container before path hashable _ solid inner
    exact baseReadAs_dict named container before path hashable inner solid
  · intro head tokens name elems comma named container _ items
    exact baseReadAs_tuple named container items
  · exact itemsReadAs_none
  · intro tokens g declares solid inner
    exact itemsReadAs_last declares inner solid
  · intro tokens g declares solid inner
    exact itemsReadAs_lastComma declares inner solid
  · intro tokens others g second elems comma declares solid items inner more
    exact itemsReadAs_more declares items inner solid more

/-- A text whose tokens declare a signature is read as this signature. -/
theorem read_of_declares {text : String} {g : Signature} (tokensOf : TokensOf text.toList tokens)
    (declares : Declares WordPath tokens g) : Signature.read text = .ok g := by
  obtain ⟨rest, scans, blank⟩ := tokensOf
  obtain ⟨left, reads, rfl⟩ := readAs_of_declares declares text.toList text.toList rest scans (ended_of_blank blank)
  rw [Signature.read, reads, ok_bind]
  exact if_pos blank

end NativeBridge.Grammar
