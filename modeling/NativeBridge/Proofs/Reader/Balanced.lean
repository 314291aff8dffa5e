/-
Two properties of the texts of signatures that let them stand inside other texts: their parentheses are balanced, and the blanks
around them do not matter.

- `Balanced`, `closeParen?_balanced`: a search for a closing parenthesis passes over balanced text.
- `paired_of_declares`: the tokens of a declaration have balanced parentheses, by induction on the rules of the grammar.
- `balanced_of_read`: so has every text that is read as a signature.
- `read_trim_of_read`: a text that is read as a signature is read as the same without the blanks around it.
-/
import NativeBridge.Declaration
import NativeBridge.Proofs.Reader.Complete
import NativeBridge.Proofs.Reader.Sound

namespace NativeBridge.Grammar

open Text Reader Declaration

variable {s t rest blanks front : List Char} {c : Char} {tokens others : List Token}

/-! ## Balanced texts -/

/-- every parenthesis that is opened is closed, and none else is -/
inductive Balanced : List Char → Prop
  | nil : Balanced []
  | char {c : Char} {s : List Char} (other : c ≠ '(' ∧ c ≠ ')') (more : Balanced s) : Balanced (c :: s)
  | nest {s t : List Char} (inner : Balanced s) (more : Balanced t) : Balanced ('(' :: (s ++ ')' :: t))

theorem Balanced.append (hs : Balanced s) (ht : Balanced t) : Balanced (s ++ t) := by
  induction hs with
  | nil => exact ht
  | char other _ ih => exact .char other ih
  | nest inner _ _ ih =>
    rw [List.cons_append, List.append_assoc, List.cons_append]
    exact .nest inner ih

theorem balanced_of_no_paren (h : ∀ c ∈ s, c ≠ '(' ∧ c ≠ ')') : Balanced s := by
  induction s with
  | nil => exact .nil
  | cons c s ih =>
    obtain ⟨first, others⟩ := List.forall_mem_cons.1 h
    exact .char first (ih others)

theorem closeParen?_char (depth : Nat) (other : c ≠ '(' ∧ c ≠ ')') (rest : List Char) :
    closeParen? depth (c :: rest) = (closeParen? depth rest).map fun (inner, after) => (c :: inner, after) := by
  rw [closeParen?.eq_def]
  dsimp only
  rw [if_neg other.1, if_neg other.2]

theorem closeParen?_open (depth : Nat) (rest : List Char) :
    closeParen? depth ('(' :: rest) = (closeParen? (depth + 1) rest).map fun (inner, after) => ('(' :: inner, after) := by
  rw [closeParen?.eq_def]
  rfl

theorem closeParen?_close (depth : Nat) (rest : List Char) :
    closeParen? (depth + 1) (')' :: rest) = (closeParen? depth rest).map fun (inner, after) => (')' :: inner, after) := by
  rw [closeParen?.eq_def]
  rfl

/-- The parenthesis that closes the open ones is not inside balanced text. -/
theorem closeParen?_balanced (balanced : Balanced s) (depth : Nat) (rest : List Char) :
    closeParen? depth (s ++ rest) = (closeParen? depth rest).map fun (inner, after) => (s ++ inner, after) := by
  induction balanced generalizing depth rest with
  | nil => simp
  | char other _ ih =>
    rw [List.cons_append, closeParen?_char depth other, ih, Option.map_map]
    rfl
  | nest inner more ihInner ihMore =>
    rw [List.cons_append, List.append_assoc, List.cons_append, closeParen?_open, ihInner, closeParen?_close, ihMore]
    simp only [Option.map_map]
    congr 1
    funext pair
    simp

theorem closeParen?_of_balanced (balanced : Balanced s) (rest : List Char) :
    closeParen? 0 (s ++ ')' :: rest) = some (s, rest) := by
  rw [closeParen?_balanced balanced, closeParen?, if_neg (by decide), if_pos rfl]
  simp

/-! ## Balanced tokens -/

/-- wherever these tokens are scanned, the text that they take up is balanced -/
def Paired (tokens : List Token) : Prop := ∀ s rest, Scans s tokens rest → ∃ text, s = text ++ rest ∧ Balanced text

theorem Paired.append (first : Paired tokens) (second : Paired others) : Paired (tokens ++ others) := by
  intro s rest scans
  obtain ⟨middle, scans, more⟩ := scans_append_iff.1 scans
  obtain ⟨text, rfl, balanced⟩ := first s middle scans
  obtain ⟨text', rfl, balanced'⟩ := second middle rest more
  exact ⟨text ++ text', (List.append_assoc ..).symm, balanced.append balanced'⟩

/-- the blanks in front of a token -/
theorem exists_blanks (s : List Char) : ∃ blanks, s = blanks ++ trimStart s ∧ Balanced blanks := by
  refine ⟨s.takeWhile isBlank, List.takeWhile_append_dropWhile.symm, balanced_of_no_paren ?_⟩
  intro c mem
  have blank : isBlank c = true := List.all_eq_true.1 (List.all_takeWhile ..) c mem
  constructor
  · rintro rfl
    exact absurd blank (by decide)
  · rintro rfl
    exact absurd blank (by decide)

theorem balanced_word {text : String} (word : IsWord text.toList) : Balanced text.toList := by
  apply balanced_of_no_paren
  intro c mem
  have wordChar := word.chars c mem
  constructor
  · rintro rfl
    exact absurd wordChar (by decide)
  · rintro rfl
    exact absurd wordChar (by decide)

/-- not a parenthesis -/
def Flat (tokens : List Token) : Prop := ∀ token ∈ tokens, token ≠ .mark '(' ∧ token ≠ .mark ')'

theorem paired_of_flat (flat : Flat tokens) : Paired tokens := by
  intro s rest scans
  induction scans with
  | done s => exact ⟨[], rfl, .nil⟩
  | @word s t rest text tokens starts word longest more ih =>
    obtain ⟨-, flat⟩ := List.forall_mem_cons.1 flat
    obtain ⟨inner, rfl, balanced⟩ := ih flat
    obtain ⟨blanks, same, first⟩ := exists_blanks s
    refine ⟨blanks ++ (text.toList ++ inner), ?_, first.append ((balanced_word word).append balanced)⟩
    rw [same, starts]
    simp
  | @mark s t rest c tokens starts known more ih =>
    obtain ⟨noParen, flat⟩ := List.forall_mem_cons.1 flat
    obtain ⟨inner, rfl, balanced⟩ := ih flat
    obtain ⟨blanks, same, first⟩ := exists_blanks s
    have other : c ≠ '(' ∧ c ≠ ')' := ⟨fun h => noParen.1 (h ▸ rfl), fun h => noParen.2 (h ▸ rfl)⟩
    refine ⟨blanks ++ c :: inner, ?_, first.append (.char other balanced)⟩
    rw [same, starts]
    simp
  | joint more ih =>
    obtain ⟨-, flat⟩ := List.forall_mem_cons.1 flat
    obtain ⟨inner, rfl, balanced⟩ := ih flat
    exact ⟨':' :: ':' :: inner, rfl, .char (by decide) (.char (by decide) balanced)⟩

theorem Paired.nest (inner : Paired tokens) : Paired (.mark '(' :: (tokens ++ [.mark ')'])) := by
  intro s rest scans
  obtain ⟨-, t, opened, scans⟩ := scans_mark_iff.1 scans
  obtain ⟨middle, scans, closing⟩ := scans_append_iff.1 scans
  obtain ⟨text, rfl, balanced⟩ := inner t middle scans
  obtain ⟨-, t, closed, done⟩ := scans_mark_iff.1 closing
  obtain rfl := scans_nil_iff.1 done
  obtain ⟨front, same, first⟩ := exists_blanks s
  obtain ⟨back, same', last⟩ := exists_blanks middle
  refine ⟨front ++ '(' :: ((text ++ back) ++ [')']), ?_, first.append (.nest (balanced.append last) .nil)⟩
  rw [same, opened, same', closed]
  simp

theorem WordPath.flat {name : String} (path : WordPath tokens name) : Flat tokens := by
  induction path with
  | word name => simp [Flat]
  | joined first others ih =>
    intro token mem
    rcases List.mem_cons.1 mem with rfl | mem
    · simp
    · rcases List.mem_cons.1 mem with rfl | mem
      · simp
      · exact ih token mem

theorem LifetimeBefore.flat {next lifetime : List Token} (before : LifetimeBefore next lifetime) : Flat lifetime := by
  cases before <;> simp [Flat]

theorem AccessBefore.flat {next front : List Token} {a : Access} (before : AccessBefore next front a) : Flat front := by
  cases before with
  | owned => simp [Flat]
  | borrowed lifetime noMut =>
    exact List.forall_mem_cons.2 ⟨by decide, lifetime.flat⟩
  | borrowedMut lifetime =>
    refine List.forall_mem_cons.2 ⟨by decide, List.forall_mem_append.2 ⟨lifetime.flat, ?_⟩⟩
    simp
  | rawMut => simp [Flat]
  | rawConst => simp [Flat]

theorem flat_singleton (known : c ∈ ['<', '>', ',']) : Flat [.mark c] := by
  have other : ∀ c ∈ ['<', '>', ','], Flat [.mark c] := by simp [Flat]
  exact other c known

/-- The tokens of a declaration have balanced parentheses, by induction on the rules. -/
theorem paired_of_declares {g : Signature} (h : Declares WordPath tokens g) : Paired tokens := by
  have mark : ∀ c ∈ ['<', '>', ','], Paired [.mark c] := fun c known => paired_of_flat (flat_singleton known)
  refine @Declares.rec WordPath (fun tokens _ _ => Paired tokens) (fun tokens _ _ => Paired tokens)
    (fun tokens _ _ _ => Paired tokens) ?_ ?_ ?_ ?_ ?_ ?_ ?_ ?_ ?_ ?_ tokens g h
  · intro front tokens a g before _ inner
    exact (paired_of_flat before.flat).append inner
  · intro tokens elems comma _ items
    exact items.nest
  · intro tokens name shape path _
    exact paired_of_flat path.flat
  · intro head tokens name elem named _ _ _ inner
    exact (paired_of_flat named.flat).append ((mark '<' (by decide)).append (inner.append (mark '>' (by decide))))
  · intro head front key tokens name keyName a kind value named _ before path _ _ _ inner
    have value := (mark ',' (by decide)).append (inner.append (mark '>' (by decide)))
    have parts := (paired_of_flat before.flat).append ((paired_of_flat path.flat).append value)
    exact (paired_of_flat named.flat).append ((mark '<' (by decide)).append parts)
  · intro head tokens name elems comma named _ _ items
    exact (paired_of_flat named.flat).append items.nest
  · exact paired_of_flat (List.forall_mem_nil _)
  · intro tokens g _ _ inner
    exact inner
  · intro tokens g _ _ inner
    exact inner.append (mark ',' (by decide))
  · intro tokens others g second elems comma _ _ _ inner more
    exact inner.append ((mark ',' (by decide)).append more)

/-- Every text that is read as a signature is balanced. -/
theorem balanced_of_read {text : String} {g : Signature} (h : Signature.read text = .ok g) : Balanced text.toList := by
  obtain ⟨tokens, ⟨rest, scans, blank⟩, declares⟩ := declares_of_read h
  obtain ⟨inner, same, balanced⟩ := paired_of_declares declares _ _ scans
  obtain ⟨blanks, same', last⟩ := exists_blanks rest
  rw [same, same', blank, List.append_nil]
  exact balanced.append last

/-! ## Blanks around a text -/

theorem isBlank_of_mem_marks {c : Char} (known : c ∈ marks) : isBlank c = false := by
  have all : marks.all (fun c => !isBlank c) = true := by decide
  simpa using List.all_eq_true.1 all c known

theorem exists_of_append_blanks (blank : ∀ c ∈ blanks, isBlank c = true) (solid : ∀ c ∈ front, isBlank c = false)
    (h : s ++ blanks = front ++ t) : ∃ t', s = front ++ t' ∧ t = t' ++ blanks := by
  rcases List.append_eq_append_iff.1 h with ⟨common, rfl, same⟩ | ⟨t', rfl, same⟩
  · have none : common = [] := by
      apply List.eq_nil_iff_forall_not_mem.2
      intro c mem
      have isBlank := blank c (same ▸ List.mem_append_left t mem)
      rw [solid c (List.mem_append_right s mem)] at isBlank
      cases isBlank
    subst none
    exact ⟨[], by simp, by simpa using same.symm⟩
  · exact ⟨t', rfl, same⟩

/-- A token in front of which blanks may stand is found with and without blanks at the end of the text. -/
theorem exists_of_trimStart_append (blank : ∀ c ∈ blanks, isBlank c = true) (solid : ∀ c ∈ front, isBlank c = false)
    (some : front ≠ []) (h : trimStart (s ++ blanks) = front ++ t) : ∃ t', trimStart s = front ++ t' ∧ t = t' ++ blanks := by
  rw [trimStart, List.dropWhile_append] at h
  split at h
  · have none : blanks.dropWhile isBlank = [] := trimStart_eq_nil_iff.2 blank
    rw [none] at h
    exact absurd (List.append_eq_nil_iff.1 h.symm).1 some
  · exact exists_of_append_blanks blank solid h

theorem tokensOf_of_append_blanks (blank : ∀ c ∈ blanks, isBlank c = true) (h : TokensOf (s ++ blanks) tokens) :
    TokensOf s tokens := by
  obtain ⟨rest, scans, ends⟩ := h
  generalize whole : s ++ blanks = text at scans
  induction scans generalizing s with
  | done text =>
    subst whole
    have blankText := trimStart_eq_nil_iff.1 ends
    exact ⟨s, .done s, trimStart_eq_nil_iff.2 fun c mem => blankText c (List.mem_append_left blanks mem)⟩
  | @word _ t rest text tokens starts word longest _ ih =>
    subst whole
    have solid : ∀ c ∈ text.toList, isBlank c = false := fun c mem => isBlank_of_isWordChar (word.chars c mem)
    obtain ⟨t', starts', rfl⟩ := exists_of_trimStart_append blank solid word.1 starts
    obtain ⟨rest, more, ends⟩ := ih ends rfl
    have longest : StopsWord t' := by
      intro c head
      have head' : (t' ++ blanks).head? = some c := by rw [List.head?_append, head, Option.some_or]
      exact longest c head'
    exact ⟨rest, .word starts' word longest more, ends⟩
  | @mark _ t rest c tokens starts known _ ih =>
    subst whole
    have solid : ∀ d ∈ [c], isBlank d = false := by
      intro d mem
      rw [List.mem_singleton.1 mem]
      exact isBlank_of_mem_marks known
    obtain ⟨t', starts', rfl⟩ := exists_of_trimStart_append blank solid (List.cons_ne_nil c []) starts
    obtain ⟨rest, more, ends⟩ := ih ends rfl
    exact ⟨rest, .mark starts' known more, ends⟩
  | @joint t rest tokens _ ih =>
    have solid : ∀ c ∈ [':', ':'], isBlank c = false := by simp [isBlank]
    obtain ⟨t', rfl, rfl⟩ := exists_of_append_blanks blank solid whole
    obtain ⟨rest, more, ends⟩ := ih ends rfl
    exact ⟨rest, .joint more, ends⟩

theorem tokensOf_trimStart (h : TokensOf s tokens) : TokensOf (trimStart s) tokens := by
  obtain ⟨rest, scans, ends⟩ := h
  cases scans with
  | done => exact ⟨trimStart s, .done _, (trimStart_idem s).trans ends⟩
  | word starts word longest more => exact ⟨rest, .word ((trimStart_idem s).trans starts) word longest more, ends⟩
  | mark starts known more => exact ⟨rest, .mark ((trimStart_idem s).trans starts) known more, ends⟩
  | joint more => exact ⟨rest, .joint more, ends⟩

theorem exists_trimEnd (s : List Char) : ∃ blanks, s = trimEnd s ++ blanks ∧ ∀ c ∈ blanks, isBlank c = true := by
  refine ⟨(s.reverse.takeWhile isBlank).reverse, ?_, ?_⟩
  · rw [trimEnd, ← List.reverse_append, List.takeWhile_append_dropWhile, List.reverse_reverse]
  · intro c mem
    exact List.all_eq_true.1 (List.all_takeWhile ..) c (List.mem_reverse.1 mem)

theorem tokensOf_trim (h : TokensOf s tokens) : TokensOf (trim s) tokens := by
  obtain ⟨blanks, same, blank⟩ := exists_trimEnd (trimStart s)
  have trimmed := tokensOf_trimStart h
  rw [same] at trimmed
  exact tokensOf_of_append_blanks blank trimmed

/-- A text that is read as a signature is read as the same without the blanks around it. -/
theorem read_trim_of_read {text : String} {g : Signature} (h : Signature.read text = .ok g) :
    Signature.read (String.ofList (trim text.toList)) = .ok g := by
  obtain ⟨tokens, scans, declares⟩ := declares_of_read h
  apply read_of_declares _ declares
  rw [String.toList_ofList]
  exact tokensOf_trim scans

end NativeBridge.Grammar
