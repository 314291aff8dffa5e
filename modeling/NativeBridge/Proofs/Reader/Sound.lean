/-
What the readers take is written by the rules of the grammar. Each reader is followed through its cases: the tokens that it read
are put together from those of its parts, and where it passed over an optional part, the text that is left does not begin with
one.

- `scans_char?`, `scans_word?`, `scans_keyword?`: a reader of single tokens has read this token.
- `path_sound`, `access_sound`: the tokens of a path, and those of an access, whatever is read behind it.
- `partsDeclared`: the readers inside brackets, by induction on the length of their text.
- `declares_of_read`: the tokens of a text that is read as a signature declare this signature.
-/
import NativeBridge.Proofs.Reader.Grammar
import NativeBridge.Proofs.Reader.Settled

namespace NativeBridge.Grammar

open Text Reader

variable {s t rest : List Char} {c : Char}

/-! ## Single tokens -/

theorem trimStart_of_char? {left : Shorter s} (h : char? c s = some left) : trimStart s = c :: left.1 := by
  unfold char? at h
  split at h
  · next d t bound starts _ =>
    split_ifs at h with same
    subst same
    cases h
    exact starts
  · cases h

theorem scans_char? {left : Shorter s} (known : c ∈ marks) (h : char? c s = some left) :
    Scans s [.mark c] left.1 :=
  .mark (trimStart_of_char? h) known (.done _)

theorem stopsWord_dropWhile (s : List Char) : StopsWord (s.dropWhile isWordChar) := by
  intro c head
  have left := List.head?_dropWhile_not isWordChar s
  rwa [Option.mem_def.1 head] at left

theorem scans_word? {word : List Char} {left : Shorter s} (h : word? s = some (word, left)) :
    Scans s [.word (String.ofList word)] left.1 := by
  unfold word? at h
  split at h
  · next d t bound starts _ =>
    split_ifs at h with first
    cases h
    have taken : IsWord (d :: t.takeWhile isWordChar) := ⟨List.cons_ne_nil d _, by simp [first]⟩
    refine .word (t := t.dropWhile isWordChar) ?_ ?_ (stopsWord_dropWhile t) (.done _)
    · rw [starts, String.toList_ofList, List.cons_append, List.takeWhile_append_dropWhile]
    · rwa [String.toList_ofList]
  · cases h

theorem scans_keyword? {keyword : String} {left : Shorter s} (h : keyword? keyword s = some left) :
    Scans s [.word keyword] left.1 := by
  unfold keyword? at h
  split at h
  · next word left' read =>
    split_ifs at h with same
    cases h
    have scans := scans_word? read
    rwa [same, String.ofList_toList] at scans
  · cases h

theorem scans_pathMark? {left : Shorter s} (h : pathMark? s = some left) : Scans s [.joint] left.1 := by
  unfold pathMark? at h
  split at h
  · cases h
    exact .joint (.done _)
  · cases h

/-! ## What the next token is not -/

theorem head?_ne_mark {next : List Token} (scans : Scans s next rest) (none : char? c s = none) :
    next.head? ≠ some (.mark c) := by
  rintro head
  obtain ⟨next, rfl⟩ := List.head?_eq_some_iff.1 head
  obtain ⟨-, t, starts, -⟩ := scans_mark_iff.1 scans
  obtain ⟨left, reads, -⟩ := char?_of_trimStart starts
  rw [none] at reads
  cases reads

theorem head?_ne_word {next : List Token} (scans : Scans s next rest) (none : word? s = none) (text : String) :
    next.head? ≠ some (.word text) := by
  rintro head
  obtain ⟨next, rfl⟩ := List.head?_eq_some_iff.1 head
  obtain ⟨word, t, starts, longest, -⟩ := scans_word_iff.1 scans
  obtain ⟨left, reads, -⟩ := word?_of_trimStart word longest starts
  rw [none] at reads
  cases reads

theorem head?_ne_keyword {next : List Token} {keyword : String} (scans : Scans s next rest)
    (none : keyword? keyword s = none) : next.head? ≠ some (.word keyword) := by
  rintro head
  obtain ⟨next, rfl⟩ := List.head?_eq_some_iff.1 head
  obtain ⟨word, t, starts, longest, -⟩ := scans_word_iff.1 scans
  obtain ⟨left, reads, -⟩ := keyword?_of_trimStart word longest starts
  rw [none] at reads
  cases reads

/-! ## Paths and accesses -/

/-- By induction on the length of the text: every word of a path is followed by less than it was. -/
theorem path_sound (source s : List Char) :
    Ensures (path source s) fun c => ∃ tokens, Scans s tokens c.2.1 ∧ WordPath tokens c.1 := by
  rw [path]
  split
  · exact .error _
  · next word afterWord readsWord =>
    have first := scans_word? readsWord
    split
    · exact .ok ⟨_, first, .word _⟩
    · next mark readsMark =>
      have joint := scans_pathMark? readsMark
      refine (path_sound source (afterWord.andRead mark).1).bind ?_
      rintro ⟨last, rest⟩ ⟨tokens, scans, others⟩
      exact .ok ⟨_, (first.append joint).append scans, .joined _ others⟩
termination_by s.length
decreasing_by exact Shorter.length_lt _

theorem skipLifetime_sound (s : List Char) : ∃ tokens, Scans s tokens (skipLifetime s).1 ∧
    ∀ next rest, Scans (skipLifetime s).1 next rest → LifetimeBefore next tokens := by
  unfold skipLifetime
  split
  · next noTick => exact ⟨[], .done s, fun next rest scans => .absent (head?_ne_mark scans noTick)⟩
  · next afterTick readsTick =>
    have tick := scans_char? (by decide) readsTick
    split
    · next word left readsWord =>
      exact ⟨_, tick.append (scans_word? readsWord), fun next rest scans => .named _⟩
    · next noWord => exact ⟨_, tick, fun next rest scans => .unnamed (head?_ne_word scans noWord)⟩

/-- What an access consists of depends on what is read behind it, since it takes all that it can. -/
theorem access_sound (source s : List Char) :
    Ensures (access source s) fun c => ∃ tokens, Scans s tokens c.2.1 ∧
      ∀ next rest, Scans c.2.1 next rest → AccessBefore next tokens c.1 := by
  unfold access
  split
  · next afterAmp readsAmp =>
    have amp := scans_char? (by decide) readsAmp
    obtain ⟨lifetime, scans, before⟩ := skipLifetime_sound afterAmp.1
    have front := amp.append scans
    dsimp only
    split
    · next left readsMut =>
      have keyword := scans_keyword? readsMut
      refine .ok ⟨_, front.append keyword, ?_⟩
      intro next rest more
      exact .borrowedMut (before _ rest (keyword.append more))
    · next noMut =>
      refine .ok ⟨_, front, ?_⟩
      intro next rest more
      exact .borrowed (before next rest more) (head?_ne_keyword more noMut)
  · next afterStar noAmp readsStar =>
    have star := scans_char? (by decide) readsStar
    split
    · next left readsMut => exact .ok ⟨_, star.append (scans_keyword? readsMut), fun next rest more => .rawMut⟩
    · next left noMut readsConst =>
      exact .ok ⟨_, star.append (scans_keyword? readsConst), fun next rest more => .rawConst⟩
    · exact .error _
  · exact .ok ⟨[], .done s, fun next rest more => .owned⟩

theorem expect_sound (source : List Char) (known : c ∈ marks) :
    Ensures (expect source c s) fun left => Scans s [.mark c] left.1 := by
  unfold expect
  split
  · next left reads => exact .ok (scans_char? known reads)
  · exact .error _

/-! ## Declarations -/

/-- the tokens in front of what is left declare the signature that was read -/
def Declared (c : Signature × Shorter s) : Prop := ∃ tokens, Scans s tokens c.2.1 ∧ Declares WordPath tokens c.1

/-- so it is with whatever the readers inside brackets give on this text -/
def PartsDeclared (s : List Char) : Prop := ∀ source,
  Ensures (nested source s) (fun c => Declared c ∧ c.1.isVoid = false) ∧
    Ensures (list source s) (fun c => ∃ tokens, Scans s (tokens ++ [.mark ')']) c.2.2.1 ∧
      DeclaresItems WordPath tokens c.1 c.2.1)

theorem base_sound (source : List Char) (shorter : ∀ t : List Char, t.length < s.length → PartsDeclared t) :
    Ensures (base source s) fun c => ∃ tokens, Scans s tokens c.2.1 ∧ DeclaresBase WordPath tokens c.1 := by
  rw [base]
  split
  · next inner readsOpen =>
    refine (shorter inner inner.2 source).2.bind ?_
    rintro ⟨elems, trailing, rest⟩ ⟨tokens, scans, items⟩
    have opened := scans_char? (by decide) readsOpen
    refine .ok ⟨_, opened.append scans, ?_⟩
    have whole := DeclaresBase.enclosed items
    unfold enclosed at whole
    exact whole
  · refine (path_sound source s).bind ?_
    rintro ⟨name, afterName⟩ ⟨head, scansHead, named⟩
    dsimp only at scansHead named ⊢
    split
    · next mark readsMark =>
      have opened := scans_char? (by decide) readsMark
      split
      · next container =>
        refine (shorter _ (afterName.andRead mark).2 source).1.bind ?_
        rintro ⟨elem, afterElem⟩ ⟨⟨tokens, scans, inner⟩, solid⟩
        refine (expect_sound source (by decide)).bind ?_
        intro rest closed
        exact .ok ⟨_, scansHead.append (opened.append (scans.append closed)), .list named container inner solid⟩
      · split
        · next container =>
          refine (access_sound source _).bind ?_
          rintro ⟨access, keyStart⟩ ⟨front, scansFront, before⟩
          refine (path_sound source _).bind ?_
          rintro ⟨keyName, afterKey⟩ ⟨key, scansKey, path⟩
          unfold keyKind
          split
          · next kind hashable =>
            refine (expect_sound source (by decide)).bind ?_
            intro comma separated
            refine (shorter _ (((afterName.andRead mark).andRead (keyStart.andRead afterKey)).andRead comma).2 source).1.bind ?_
            rintro ⟨value, afterValue⟩ ⟨⟨tokens, scans, inner⟩, solid⟩
            refine (expect_sound source (by decide)).bind ?_
            intro rest closed
            have tail := scansFront.append (scansKey.append (separated.append (scans.append closed)))
            exact .ok ⟨_, scansHead.append (opened.append tail),
              .dict named container (before _ _ scansKey) path hashable inner solid⟩
          · exact Ensures.error _
        · exact .error _
    · split
      · next mark readsMark =>
        split_ifs at readsMark with container
        have opened := scans_char? (by decide) readsMark
        refine (shorter _ (afterName.andRead mark).2 source).2.bind ?_
        rintro ⟨elems, trailing, rest⟩ ⟨tokens, scans, items⟩
        exact .ok ⟨_, scansHead.append (opened.append scans), .tuple named container items⟩
      · split
        · next shape known => exact .ok ⟨head, scansHead, .named named known⟩
        · exact .error _

theorem declaration_sound (source : List Char) (shorter : ∀ t : List Char, t.length < s.length → PartsDeclared t) :
    Ensures (declaration source s) Declared := by
  rw [declaration]
  refine (access_sound source s).bind ?_
  rintro ⟨outer, afterAccess⟩ ⟨front, scansFront, before⟩
  refine (base_sound source fun t h => shorter t (Nat.lt_of_lt_of_le h afterAccess.2)).bind ?_
  rintro ⟨inner, rest⟩ ⟨tokens, scans, base⟩
  exact .ok ⟨_, scansFront.append scans, .intro (before _ _ scans) base⟩

theorem nested_sound {source : List Char} (whole : Ensures (declaration source s) Declared) :
    Ensures (nested source s) fun c => Declared c ∧ c.1.isVoid = false := by
  rw [nested]
  refine whole.bind ?_
  rintro ⟨inner, rest⟩ declared
  dsimp only
  split
  · exact .error _
  · next solid => exact .ok ⟨declared, eq_false_of_ne_true solid⟩

theorem list_sound {source : List Char} (first : Ensures (nested source s) fun c => Declared c ∧ c.1.isVoid = false)
    (shorter : ∀ t : List Char, t.length < s.length → PartsDeclared t) :
    Ensures (list source s) fun c => ∃ tokens, Scans s (tokens ++ [.mark ')']) c.2.2.1 ∧
      DeclaresItems WordPath tokens c.1 c.2.1 := by
  rw [list]
  split
  · next rest readsClose => exact .ok ⟨[], scans_char? (by decide) readsClose, .none⟩
  · refine first.bind ?_
    rintro ⟨elem, afterElem⟩ ⟨⟨tokens, scans, inner⟩, solid⟩
    dsimp only at scans inner solid ⊢
    split
    · next comma readsComma =>
      have separated := scans_char? (by decide) readsComma
      split
      · next rest readsClose =>
        have closed := scans_char? (by decide) readsClose
        exact .ok ⟨_, (scans.append separated).append closed, .lastComma inner solid⟩
      · next noClose =>
        refine (shorter _ (afterElem.andRead comma).2 source).2.bind ?_
        rintro ⟨others, trailing, rest⟩ ⟨more, scansMore, items⟩
        dsimp only at scansMore items
        cases others with
        | nil =>
          cases items
          exact absurd rfl (head?_ne_mark scansMore noClose)
        | cons second others =>
          refine .ok ⟨_, ?_, .more inner solid items⟩
          rw [List.append_assoc]
          exact scans.append (separated.append scansMore)
    · refine (expect_sound source (by decide)).bind ?_
      intro rest closed
      exact .ok ⟨_, scans.append closed, .last inner solid⟩

/-- By induction on the length of the text: what stands inside brackets is shorter than the text with the brackets. -/
theorem partsDeclared (s : List Char) : PartsDeclared s := by
  induction h : s.length using Nat.strong_induction_on generalizing s with
  | _ n ih =>
    have shorter : ∀ t : List Char, t.length < s.length → PartsDeclared t := fun t lt => ih t.length (h ▸ lt) t rfl
    intro source
    have first := nested_sound (declaration_sound source shorter)
    exact ⟨first, list_sound first shorter⟩

/-- The tokens of a text that is read declare what it is read as. -/
theorem declares_of_read {text : String} {g : Signature} (h : Signature.read text = .ok g) :
    ∃ tokens, TokensOf text.toList tokens ∧ Declares WordPath tokens g := by
  have declared : Ensures (Signature.read text) fun g =>
      ∃ tokens, TokensOf text.toList tokens ∧ Declares WordPath tokens g := by
    refine (declaration_sound text.toList fun t _ => partsDeclared t).bind ?_
    rintro ⟨whole, rest⟩ ⟨tokens, scans, declares⟩
    dsimp only
    split_ifs with blank
    · exact .ok ⟨tokens, ⟨rest, scans, blank⟩, declares⟩
    · exact .error _
  exact declared g h

end NativeBridge.Grammar
