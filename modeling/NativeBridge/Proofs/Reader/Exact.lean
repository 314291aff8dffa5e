/-
The reader of signatures takes exactly the texts that the grammar derives.

- `Signature.read_ok_iff_declares`: a text is read as a signature just if its tokens declare this signature, where the name of a
  container, like any other name, is a path.
- `Signature.read_list_named_by_path`: with a single word for the name of a container, the grammar would miss texts that are read.
-/
import NativeBridge.Proofs.Reader.Complete
import NativeBridge.Proofs.Reader.Sound

namespace NativeBridge.Signature

open Grammar Text

/-- **What is read is what the grammar derives**: a text is read as a signature exactly if it consists of the tokens of a
declaration of this signature, and so is refused exactly if its tokens declare none. -/
theorem read_ok_iff_declares (text : String) (s : Signature) :
    read text = .ok s ↔ ∃ tokens, TokensOf text.toList tokens ∧ Declares WordPath tokens s := by
  constructor
  · intro reads
    exact declares_of_read reads
  · rintro ⟨tokens, tokensOf, declares⟩
    exact read_of_declares tokensOf declares

/-- no name stands for a list of integers -/
theorem named?_ne_list_int (name : String) (w : IntWidth) :
    Reader.named? name ≠ some (.list (.owned (.primitive (.int w)))) := by
  unfold Reader.named?
  intro h
  split at h
  · cases h
  · split at h <;> cases h

/-- A list may be named by a path, like everything else: the text is read, but no rule derives it that asks for a single word
in front of the bracket. -/
theorem read_list_named_by_path :
    read "a::List<i64>" = .ok (.owned (.list (.owned (.primitive (.int .i64))))) ∧
      ¬ ∃ tokens, TokensOf "a::List<i64>".toList tokens ∧
        Declares SingleWord tokens (.owned (.list (.owned (.primitive (.int .i64))))) := by
  have scanned : Scans "a::List<i64>".toList
      [.word "a", .joint, .word "List", .mark '<', .word "i64", .mark '>'] [] :=
    .word (t := "::List<i64>".toList) rfl (by decide) (Reader.stopsWord_cons rfl) <| .joint <|
      .word (t := "<i64>".toList) rfl (by decide) (Reader.stopsWord_cons rfl) <| .mark rfl (by decide) <|
        .word (t := ">".toList) rfl (by decide) (Reader.stopsWord_cons rfl) <| .mark rfl (by decide) <| .done _
  have integer : Declares WordPath [.word "i64"] (.owned (.primitive (.int .i64))) :=
    .intro .owned (.named (.word "i64") rfl)
  have derived : Declares WordPath [.word "a", .joint, .word "List", .mark '<', .word "i64", .mark '>']
      (.owned (.list (.owned (.primitive (.int .i64))))) :=
    .intro .owned (.list (.joined "a" (.word "List")) (.inl rfl) integer rfl)
  refine ⟨read_of_declares ⟨[], scanned, rfl⟩ derived, ?_⟩
  rintro ⟨tokens, ⟨rest, scans, -⟩, declares⟩
  -- the text begins with neither a mark nor the word `List`, and what is declared is a list
  have noMark : ∀ c t, trimStart "a::List<i64>".toList = c :: t → c ∉ marks := by
    intro c t starts
    obtain rfl : 'a' = c := (List.cons.inj starts).1
    decide
  generalize same : Signature.owned (.list (.owned (.primitive (.int .i64)))) = g at declares
  cases declares with
  | intro before base =>
    cases before with
    | owned =>
      rw [reached, if_pos rfl] at same
      cases base with
      | enclosed items =>
        obtain ⟨known, t, starts, -⟩ := scans_mark_iff.1 scans
        exact noMark _ t starts known
      | named path known =>
        cases same
        exact named?_ne_list_int _ _ known
      | list named container inner solid =>
        cases named with
        | word name =>
          obtain ⟨-, t, starts, -⟩ := scans_word_iff.1 scans
          rcases container with rfl | rfl
          · exact absurd (List.cons.inj starts).1 (by decide)
          · exact absurd (List.cons.inj starts).1 (by decide)
      | dict named container before path hashable inner solid => cases same
      | tuple named container items => cases same
    | _ =>
      obtain ⟨known, t, starts, -⟩ := scans_mark_iff.1 scans
      exact noMark _ t starts known

end NativeBridge.Signature
