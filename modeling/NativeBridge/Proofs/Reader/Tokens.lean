/-
What the readers of single tokens do with a text whose beginning is known. The lemmas speak of the text that is left when the
blanks in front are gone, so they hold whether there are blanks or not.

- `char?_of_trimStart`, `char?_eq_none`: a character is read exactly where it stands.
- `word?_of_trimStart`, `path_of_trimStart`: a word is read up to a character that can stand in no word.
- `access_of_mark`: in front of a text that begins like a shape, the mark of an access is read as this access.
-/
import Mathlib.Tactic
import NativeBridge.Signature.Printer
import NativeBridge.Signature.Reader

namespace NativeBridge.Reader

open Text

variable {s t w rest : List Char} {c d : Char}

/-! ## Characters -/

theorem trimStart_cons (h : isBlank c = false) : trimStart (c :: s) = c :: s := by
  simp [trimStart, h]

theorem char?_of_trimStart (h : trimStart s = c :: t) : ∃ left, char? c s = some left ∧ left.1 = t := by
  unfold char?
  split
  · next d rest bound starts _ =>
    obtain ⟨rfl, rfl⟩ := List.cons.inj (starts.symm.trans h)
    exact ⟨_, if_pos rfl, rfl⟩
  · next starts _ => exact absurd (starts.symm.trans h) nofun

theorem char?_of_cons (h : s = c :: t) (mark : isBlank c = false) : ∃ left, char? c s = some left ∧ left.1 = t :=
  char?_of_trimStart (h ▸ trimStart_cons mark)

theorem char?_eq_none (h : (trimStart s).head? ≠ some c) : char? c s = none := by
  unfold char?
  split
  · next d rest bound starts _ =>
    refine if_neg fun same => h ?_
    rw [starts, same, List.head?_cons]
  · rfl

theorem expect_of_cons (source : List Char) (h : s = c :: t) (mark : isBlank c = false) :
    ∃ left, expect source c s = .ok left ∧ left.1 = t := by
  obtain ⟨left, reads, leaves⟩ := char?_of_cons h mark
  exact ⟨left, by rw [expect, reads], leaves⟩

/-! ## Words -/

/-- a text that is one word -/
def IsWord (w : List Char) : Prop := w ≠ [] ∧ w.all isWordChar = true

instance (w : List Char) : Decidable (IsWord w) := inferInstanceAs (Decidable (_ ∧ _))

theorem IsWord.chars (word : IsWord w) : ∀ c ∈ w, isWordChar c = true := List.all_eq_true.1 word.2

/-- a text in front of which a word ends -/
def StopsWord (rest : List Char) : Prop := ∀ c ∈ rest.head?, isWordChar c = false

theorem stopsWord_cons (h : isWordChar c = false) : StopsWord (c :: rest) := by
  intro d head
  obtain rfl : c = d := by simpa using head
  exact h

/-- a text in front of which a word or a path ends -/
def EndsWord (rest : List Char) : Prop := ∀ c ∈ rest.head?, isWordChar c = false ∧ c ≠ ':'

theorem EndsWord.stops (ends : EndsWord rest) : StopsWord rest := fun c head => (ends c head).1

theorem endsWord_cons (h : isWordChar c = false ∧ c ≠ ':') : EndsWord (c :: rest) := by
  intro d head
  obtain rfl : c = d := by simpa using head
  exact h

theorem isBlank_of_isWordChar (h : isWordChar c = true) : isBlank c = false := by
  have code : (65 ≤ c.toNat ∧ c.toNat ≤ 90) ∨ (97 ≤ c.toNat ∧ c.toNat ≤ 122) ∨ (48 ≤ c.toNat ∧ c.toNat ≤ 57) ∨
      c.toNat = 95 := by
    delta isWordChar Char.isAlphanum Char.isAlpha Char.isUpper Char.isLower Char.isDigit at h
    simp only [Bool.or_eq_true, Bool.and_eq_true, decide_eq_true_eq, beq_iff_eq] at h
    rcases h with ((h | h) | h) | rfl
    · exact .inl h
    · exact .inr (.inl h)
    · exact .inr (.inr (.inl h))
    · exact .inr (.inr (.inr rfl))
  simp [isBlank]
  omega

theorem trimStart_word (word : IsWord w) : trimStart (w ++ rest) = w ++ rest := by
  obtain ⟨c, cs, rfl⟩ := List.exists_cons_of_ne_nil word.1
  exact trimStart_cons (isBlank_of_isWordChar (word.chars c List.mem_cons_self))

theorem char?_eq_none_of_word (word : IsWord w) (h : trimStart s = w ++ rest) (mark : isWordChar c = false) :
    char? c s = none := by
  obtain ⟨d, cs, rfl⟩ := List.exists_cons_of_ne_nil word.1
  refine char?_eq_none fun same => ?_
  obtain rfl : d = c := by simpa [h] using same
  exact absurd (word.chars d List.mem_cons_self) (by simp [mark])

theorem takeWhile_word (word : IsWord w) (ends : StopsWord rest) : (w ++ rest).takeWhile isWordChar = w := by
  rw [List.takeWhile_append_of_pos word.chars]
  cases rest with
  | nil => simp
  | cons c rest => simp [ends c rfl]

theorem dropWhile_word (word : IsWord w) (ends : StopsWord rest) : (w ++ rest).dropWhile isWordChar = rest := by
  rw [List.dropWhile_append_of_pos word.chars]
  cases rest with
  | nil => simp
  | cons c rest => simp [ends c rfl]

theorem word?_of_trimStart (word : IsWord w) (ends : StopsWord rest) (h : trimStart s = w ++ rest) :
    ∃ left, word? s = some (w, left) ∧ left.1 = rest := by
  obtain ⟨c, cs, rfl⟩ := List.exists_cons_of_ne_nil word.1
  have first : isWordChar c = true := word.chars c List.mem_cons_self
  have taken := takeWhile_word word ends
  have dropped := dropWhile_word word ends
  rw [List.cons_append, List.takeWhile_cons_of_pos first] at taken
  rw [List.cons_append, List.dropWhile_cons_of_pos first] at dropped
  unfold word?
  split
  · next d more bound starts _ =>
    obtain ⟨rfl, rfl⟩ := List.cons.inj (starts.symm.trans h)
    rw [if_pos first]
    exact ⟨_, congrArg some (Prod.ext taken rfl), dropped⟩
  · next starts _ => exact absurd (starts.symm.trans h) nofun

theorem word?_eq_none (h : ∀ c ∈ (trimStart s).head?, isWordChar c = false) : word? s = none := by
  unfold word?
  split
  · next c more bound starts _ =>
    rw [starts] at h
    exact if_neg (by simp [h c rfl])
  · rfl

theorem keyword?_of_trimStart {keyword : String} (word : IsWord keyword.toList) (ends : StopsWord rest)
    (h : trimStart s = keyword.toList ++ rest) : ∃ left, keyword? keyword s = some left ∧ left.1 = rest := by
  obtain ⟨left, reads, leaves⟩ := word?_of_trimStart word ends h
  exact ⟨left, by simp [keyword?, reads], leaves⟩

theorem keyword?_eq_none {keyword : String} (word : IsWord w) (ends : StopsWord rest) (h : trimStart s = w ++ rest)
    (other : w ≠ keyword.toList) : keyword? keyword s = none := by
  obtain ⟨left, reads, -⟩ := word?_of_trimStart word ends h
  simp [keyword?, reads, other]

theorem pathMark?_eq_none (ends : EndsWord rest) : pathMark? rest = none := by
  unfold pathMark?
  split
  · exact absurd rfl (ends ':' rfl).2
  · rfl

theorem path_of_trimStart (source : List Char) {name : String} (word : IsWord name.toList) (ends : EndsWord rest)
    (h : trimStart s = name.toList ++ rest) : ∃ left, path source s = .ok (name, left) ∧ left.1 = rest := by
  obtain ⟨left, reads, leaves⟩ := word?_of_trimStart word ends.stops h
  have stop : pathMark? left.1 = none := by rw [leaves]; exact pathMark?_eq_none ends
  refine ⟨left, ?_, leaves⟩
  rw [path]
  simp only [reads]
  simp [stop]

/-! ## The end of a declaration -/

/-- the text ends here, or goes on with a mark that stands behind a declaration -/
def Closed (rest : List Char) : Prop := ∀ c ∈ rest.head?, c = ',' ∨ c = ')' ∨ c = '>'

theorem closed_nil : Closed [] := nofun

theorem closed_cons (h : c = ',' ∨ c = ')' ∨ c = '>') : Closed (c :: rest) := by
  intro d head
  obtain rfl : c = d := by simpa using head
  exact h

namespace Closed

theorem endsWord (closed : Closed rest) : EndsWord rest := by
  intro c head
  rcases closed c head with rfl | rfl | rfl <;> decide

theorem trimStart_eq (closed : Closed rest) : trimStart rest = rest := by
  cases rest with
  | nil => rfl
  | cons c rest => rcases closed c rfl with rfl | rfl | rfl <;> rfl

theorem char?_eq_none (closed : Closed rest) (other : c ≠ ',' ∧ c ≠ ')' ∧ c ≠ '>') : char? c rest = none := by
  refine Reader.char?_eq_none fun head => ?_
  rw [closed.trimStart_eq] at head
  rcases closed c head with rfl | rfl | rfl <;> simp at other

end Closed

/-! ## The beginning of a shape -/

/-- a text that begins like a shape does: with a word that is not `mut`, or with a parenthesis -/
inductive BeginsShape : List Char → Prop
  | word {w rest : List Char} (word : IsWord w) (ends : EndsWord rest) (other : w ≠ "mut".toList) : BeginsShape (w ++ rest)
  | paren (rest : List Char) : BeginsShape ('(' :: rest)

namespace BeginsShape

theorem head? (h : BeginsShape t) : ∃ c, t.head? = some c ∧ (isWordChar c = true ∨ c = '(') := by
  cases h with
  | @word w rest word ends other =>
    obtain ⟨c, cs, rfl⟩ := List.exists_cons_of_ne_nil word.1
    exact ⟨c, rfl, .inl (word.chars c List.mem_cons_self)⟩
  | paren rest => exact ⟨'(', rfl, .inr rfl⟩

theorem trimStart_eq (h : BeginsShape t) : trimStart t = t := by
  cases h with
  | word word ends other => exact trimStart_word word
  | paren rest => exact trimStart_cons rfl

theorem head?_ne (h : BeginsShape t) (mark : isWordChar c = false ∧ c ≠ '(') : t.head? ≠ some c := by
  obtain ⟨d, head, kind⟩ := h.head?
  intro same
  obtain rfl := Option.some.inj (head.symm.trans same)
  rcases kind with word | paren
  · exact absurd word (by simp [mark.1])
  · exact mark.2 paren

theorem char?_eq_none (h : BeginsShape t) (text : trimStart s = t) (mark : isWordChar c = false ∧ c ≠ '(') :
    char? c s = none :=
  Reader.char?_eq_none (text ▸ h.head?_ne mark)

theorem keyword?_mut (h : BeginsShape t) (text : trimStart s = t) : keyword? "mut" s = none := by
  cases h with
  | word word ends other => exact keyword?_eq_none word ends.stops text other
  | paren rest =>
    have noWord : word? s = none := word?_eq_none fun c head => by
      obtain rfl : '(' = c := by simpa [text] using head
      rfl
    rw [keyword?, noWord]

end BeginsShape

/-! ## Accesses -/

theorem skipLifetime_of_trimStart (h : (trimStart s).head? ≠ some '\'') : (skipLifetime s).1 = s := by
  rw [skipLifetime, char?_eq_none h]
  rfl

/-- an ampersand without a lifetime after it -/
theorem char?_amp_of_trimStart (h : trimStart s = '&' :: t) (noTick : (trimStart t).head? ≠ some '\'') :
    ∃ amp, char? '&' s = some amp ∧ trimStart (amp.andThen (skipLifetime amp.1)).1 = trimStart t := by
  obtain ⟨amp, readsAmp, rfl⟩ := char?_of_trimStart h
  refine ⟨amp, readsAmp, ?_⟩
  rw [Shorter.andThen, skipLifetime_of_trimStart noTick]

/-- In front of a text that begins like a shape, the mark of an access is read as this access. -/
theorem access_of_mark (source : List Char) (a : Access) (begins : BeginsShape t) (h : trimStart s = a.mark.toList ++ t) :
    ∃ left, access source s = .ok (a, left) ∧ trimStart left.1 = t := by
  have blankFirst : trimStart (' ' :: t) = t := begins.trimStart_eq
  cases a with
  | owned =>
    have noAmp : char? '&' s = none := begins.char?_eq_none h (by decide)
    have noStar : char? '*' s = none := begins.char?_eq_none h (by decide)
    exact ⟨.all s, by simp only [access, noAmp, noStar], h⟩
  | borrowed =>
    have noTick : (trimStart t).head? ≠ some '\'' := by rw [begins.trimStart_eq]; exact begins.head?_ne (by decide)
    obtain ⟨amp, readsAmp, text⟩ := char?_amp_of_trimStart (t := t) h noTick
    rw [begins.trimStart_eq] at text
    have noMut := begins.keyword?_mut text
    exact ⟨(amp.andThen (skipLifetime amp.1)).weaken, by simp only [access, readsAmp, noMut], text⟩
  | borrowedMut =>
    have noTick : (trimStart ("mut".toList ++ ' ' :: t)).head? ≠ some '\'' := by
      rw [trimStart_word (by decide)]
      simp
    obtain ⟨amp, readsAmp, text⟩ := char?_amp_of_trimStart (t := "mut".toList ++ ' ' :: t) h noTick
    rw [trimStart_word (by decide)] at text
    obtain ⟨left, readsMut, leaves⟩ := keyword?_of_trimStart (by decide) (stopsWord_cons (by decide)) text
    exact ⟨((amp.andThen (skipLifetime amp.1)).andRead left).weaken, by simp only [access, readsAmp, readsMut],
      by rw [← blankFirst, ← leaves]; rfl⟩
  | rawConst =>
    have noAmp : char? '&' s = none := char?_eq_none (by simp [h, Access.mark])
    obtain ⟨star, readsStar, text⟩ := char?_of_trimStart (c := '*') (t := "const".toList ++ ' ' :: t) h
    have text : trimStart star.1 = "const".toList ++ ' ' :: t := by rw [text, trimStart_word (by decide)]
    have noMut : keyword? "mut" star.1 = none :=
      keyword?_eq_none (by decide) (stopsWord_cons (by decide)) text (by decide)
    obtain ⟨left, readsConst, leaves⟩ := keyword?_of_trimStart (by decide) (stopsWord_cons (by decide)) text
    exact ⟨(star.andRead left).weaken, by simp only [access, noAmp, readsStar, noMut, readsConst],
      by rw [← blankFirst, ← leaves]; rfl⟩
  | rawMut =>
    have noAmp : char? '&' s = none := char?_eq_none (by simp [h, Access.mark])
    obtain ⟨star, readsStar, text⟩ := char?_of_trimStart (c := '*') (t := "mut".toList ++ ' ' :: t) h
    have text : trimStart star.1 = "mut".toList ++ ' ' :: t := by rw [text, trimStart_word (by decide)]
    obtain ⟨left, readsMut, leaves⟩ := keyword?_of_trimStart (by decide) (stopsWord_cons (by decide)) text
    exact ⟨(star.andRead left).weaken, by simp only [access, noAmp, readsStar, readsMut],
      by rw [← blankFirst, ← leaves]; rfl⟩

end NativeBridge.Reader
