/-
Declarations are read segment by segment. The search for the first `type(` looks at characters only, and so does the search for
the parenthesis that closes a segment; nothing is lost by this, since a symbol has no parenthesis and the text of a signature
has balanced ones.

- `SegmentDeclares`: what the text inside a segment declares.
- `cutAtSegment?_of_no_paren`: the first segment is found behind every symbol, also behind one that ends like a segment begins.
- `segments_segmentedText`: the segments are read one after the other, by induction on them.
- `read_of_segments`: the two outcomes for a whole declaration.
- `read_symbol_segments`: both together, and reading after writing for everything that was read.
-/
import NativeBridge.Proofs.Reader.Balanced
import NativeBridge.Proofs.Reader.RoundTrip

namespace NativeBridge.Declaration

open Reader Text Grammar

variable {s t rest front inner : List Char} {c : Char} {symbol colons : String} {texts : List String}
  {types params : List Signature} {result : Signature}

/-- what the text inside a segment declares: no value if it is blank, else what it is read as -/
inductive SegmentDeclares (text : String) : Signature → Prop
  | blank (h : trim text.toList = []) : SegmentDeclares text (.owned .void)
  | type {s : Signature} (h : Signature.read text = .ok s) : SegmentDeclares text s

/-- a segment with this text inside -/
def segmentText (text : String) : List Char := segmentMark ++ text.toList ++ [')']

/-- segments with semicolons between them -/
def segmentedText (texts : List String) : List Char := [';'].intercalate (texts.map segmentText)

/-! ## One segment -/

theorem trim_ne_nil_of_read {text : String} {s : Signature} (h : Signature.read text = .ok s) : trim text.toList ≠ [] := by
  obtain ⟨tokens, scans, declares⟩ := declares_of_read h
  obtain ⟨token, others, rfl, -⟩ := begins_of_declares declares
  obtain ⟨rest, scans, -⟩ := tokensOf_trim scans
  intro blank
  rw [blank] at scans
  cases scans with
  | word starts word longest more => exact word.1 (List.append_eq_nil_iff.1 starts.symm).1
  | mark starts known more => cases starts

theorem segmentType_of_declares {text : String} {s : Signature} (declared : SegmentDeclares text s) :
    segmentType text.toList = .ok s := by
  cases declared with
  | blank h => exact if_pos h
  | type h =>
    unfold segmentType
    split
    · next blank =>
      exact absurd blank (trim_ne_nil_of_read h)
    · exact read_trim_of_read h

theorem SegmentDeclares.balanced {text : String} {s : Signature} (declared : SegmentDeclares text s) :
    Balanced text.toList := by
  cases declared with
  | type h => exact balanced_of_read h
  | blank h =>
    have blank : trimStart text.toList = [] := by
      obtain ⟨blanks, same, all⟩ := exists_trimEnd (trimStart text.toList)
      have empty : trimEnd (trimStart text.toList) = [] := h
      rw [empty, List.nil_append] at same
      rw [← trimStart_idem]
      exact trimStart_eq_nil_iff.2 (same ▸ all)
    obtain ⟨blanks, same, balanced⟩ := exists_blanks text.toList
    rw [same, blank, List.append_nil]
    exact balanced

/-- what is left behind a segment and one semicolon -/
def afterSegment (s : List Char) : List Char :=
  match trimStart s with
  | ';' :: rest => rest
  | rest => rest

/-- A segment ends at the parenthesis that closes it. -/
theorem segment_of_balanced (balanced : Balanced inner) (rest : List Char) :
    ∃ left, segment (segmentMark ++ (inner ++ ')' :: rest)) = .ok (inner, left) ∧ left.1 = afterSegment rest := by
  have marked : segmentMark.isPrefixOf (segmentMark ++ (inner ++ ')' :: rest)) = true := by simp
  have closes : closeParen? 0 ((segmentMark ++ (inner ++ ')' :: rest)).drop segmentMark.length) = some (inner, rest) := by
    rw [List.drop_left]
    exact closeParen?_of_balanced balanced rest
  unfold segment afterSegment
  rw [dif_pos marked]
  split
  · next found =>
    obtain ⟨rfl, rfl⟩ := Prod.mk.inj (Option.some.inj (closes.symm.trans found))
    dsimp only
    split
    · next starts => exact ⟨_, rfl, by simp only [starts]⟩
    · next noSemicolon =>
      refine ⟨_, rfl, ?_⟩
      split
      · next starts => exact absurd starts (noSemicolon _)
      · rfl
  · next none => rw [closes] at none; cases none

/-! ## All segments -/

theorem segments_of_blank (h : trimStart s = []) : segments s = .ok [] := by
  rw [segments.eq_def]
  split
  · rfl
  · next starts => rw [h] at starts; cases starts

theorem segments_of_segment {left : Shorter s} (h : trimStart s = s) (reads : segment s = .ok (inner, left)) :
    segments s = (do
      let first ← segmentType inner
      let others ← segments left.1
      .ok (first :: others)) := by
  rw [segments.eq_def]
  split
  · next blank =>
    rw [h] at blank
    subst blank
    cases reads
  · next c cs starts =>
    obtain rfl := h.symm.trans starts
    rw [reads]
    rfl

theorem trimStart_segmentMark (rest : List Char) : trimStart (segmentMark ++ rest) = segmentMark ++ rest :=
  trimStart_cons (by decide)

theorem segments_segmentText {text : String} {first : Signature} (declared : SegmentDeclares text first)
    (others : segments (afterSegment rest) = .ok types) :
    segments (segmentText text ++ rest) = .ok (first :: types) := by
  obtain ⟨left, reads, leaves⟩ := segment_of_balanced declared.balanced rest
  have same : segmentText text ++ rest = segmentMark ++ (text.toList ++ ')' :: rest) := by simp [segmentText]
  rw [same, segments_of_segment (trimStart_segmentMark _) reads, segmentType_of_declares declared, ok_bind, leaves, others,
    ok_bind]

theorem segmentedText_cons (text second : String) (more : List String) :
    segmentedText (text :: second :: more) = segmentText text ++ ';' :: segmentedText (second :: more) := by
  simp [segmentedText]

/-- The segments are read one after the other. -/
theorem segments_segmentedText (declared : List.Forall₂ SegmentDeclares texts types) :
    segments (segmentedText texts) = .ok types := by
  induction declared with
  | nil => exact segments_of_blank rfl
  | @cons text s texts types first others ih =>
    cases others with
    | nil =>
      have last : segments (afterSegment []) = .ok [] := segments_of_blank rfl
      simpa [segmentedText] using segments_segmentText first last
    | cons second others =>
      rw [segmentedText_cons]
      exact segments_segmentText first ih

/-! ## The symbol in front -/

/-- What has no parenthesis among its first five characters does not begin a segment. -/
theorem not_isPrefixOf_of_no_paren (noParen : '(' ∉ front) (long : segmentMark.length ≤ front.length) (rest : List Char) :
    segmentMark.isPrefixOf (front ++ rest) = false := by
  by_contra h
  obtain ⟨others, same⟩ := List.isPrefixOf_iff_prefix.1 (Bool.not_eq_false _ ▸ h)
  have isPrefix : segmentMark <+: front :=
    List.prefix_of_prefix_length_le ⟨others, same⟩ (List.prefix_append front rest) long
  exact noParen (isPrefix.subset (by decide))

/-- The first segment is found behind a text without parentheses. -/
theorem cutAtSegment?_of_no_paren (noParen : '(' ∉ front) (rest : List Char) :
    cutAtSegment? (front ++ (segmentMark ++ rest)) = some (front, segmentMark ++ rest) := by
  induction front with
  | nil => rfl
  | cons c front ih =>
    -- The text may end like a segment begins, so the parenthesis that comes next is the sixth character or a later one.
    have later : segmentMark.isPrefixOf (c :: (front ++ (segmentMark ++ rest))) = false := by
      have noParen : '(' ∉ c :: (front ++ ['t', 'y', 'p', 'e']) := by simpa using noParen
      simpa [segmentMark] using not_isPrefixOf_of_no_paren noParen (by simp [segmentMark]) ('(' :: rest)
    have tail := ih fun mem => noParen (List.mem_cons_of_mem c mem)
    rw [List.cons_append, cutAtSegment?, later, tail]
    rfl

theorem mem_symbol (word : isSymbol symbol = true) : ∀ c ∈ symbol.toList, isWordChar c = true := by
  rw [isSymbol, Bool.and_eq_true] at word
  exact List.all_eq_true.1 word.2

theorem not_mem_symbol (word : isSymbol symbol = true) (mark : isWordChar c = false) : c ∉ symbol.toList := by
  intro mem
  have wordChar := mem_symbol word c mem
  rw [mark] at wordChar
  cases wordChar

theorem symbol_ne_nil (word : isSymbol symbol = true) : symbol.toList ≠ [] := by
  rintro empty
  obtain rfl : symbol = "" := String.toList_eq_nil_iff.1 empty
  cases word

theorem trim_eq_self (first : ∀ c ∈ s.head?, isBlank c = false) (last : ∀ c ∈ s.getLast?, isBlank c = false) :
    trim s = s := by
  have start : ∀ u : List Char, (∀ c ∈ u.head?, isBlank c = false) → trimStart u = u := by
    intro u solid
    cases u with
    | nil => rfl
    | cons c u => exact trimStart_cons (solid c rfl)
  have ends : trimStart s.reverse = s.reverse := start s.reverse (by simpa using last)
  rw [trim, start s first, trimEnd, ← trimStart, ends, List.reverse_reverse]

theorem trim_symbol (word : isSymbol symbol = true) : trim symbol.toList = symbol.toList := by
  have solid : ∀ c ∈ symbol.toList, isBlank c = false := fun c mem => isBlank_of_isWordChar (mem_symbol word c mem)
  apply trim_eq_self
  · exact fun c head => solid c (List.mem_of_head? head)
  · exact fun c last => solid c (List.mem_of_getLast? last)

theorem dropColons_symbol (word : isSymbol symbol = true) (mark : colons = "::" ∨ colons = "") :
    dropColons (symbol.toList ++ colons.toList) = symbol.toList := by
  rcases mark with rfl | rfl
  · simp [dropColons]
  · have noColons : [':', ':'].isSuffixOf symbol.toList = false := by
      by_contra h
      have isSuffix := List.isSuffixOf_iff_suffix.1 (Bool.not_eq_false _ ▸ h)
      exact not_mem_symbol word (by decide) (isSuffix.subset List.mem_cons_self)
    simp only [String.toList_empty, List.append_nil]
    rw [dropColons, noColons]
    rfl

/-- a declaration as it is put together from a symbol, colons or nothing, and the texts of its segments -/
def segmented (symbol colons : String) (texts : List String) : String :=
  symbol ++ colons ++ ";".intercalate (texts.map fun text => "type(" ++ text ++ ")")

theorem toList_segmented (symbol colons : String) (texts : List String) :
    (segmented symbol colons texts).toList = symbol.toList ++ colons.toList ++ segmentedText texts := by
  have segment : String.toList ∘ (fun text => "type(" ++ text ++ ")") = segmentText := by
    funext text
    simp [segmentText, segmentMark]
  simp only [segmented, segmentedText, String.toList_append, String.toList_intercalate, List.map_map, segment]
  rfl

theorem exists_segmentedText (some : texts ≠ []) :
    ∃ rest, segmentedText texts = segmentMark ++ rest ∧ (segmentedText texts).getLast? = .some ')' := by
  induction texts with
  | nil => exact absurd rfl some
  | cons text more ih =>
    cases more with
    | nil => exact ⟨text.toList ++ [')'], by simp [segmentedText, segmentText], by simp [segmentedText, segmentText]⟩
    | cons second more =>
      obtain ⟨rest, -, last⟩ := ih (List.cons_ne_nil second more)
      rw [segmentedText_cons]
      refine ⟨text.toList ++ ')' :: ';' :: segmentedText (second :: more), by simp [segmentText], ?_⟩
      rw [List.getLast?_append, List.getLast?_cons, last]
      rfl

/-- A declaration is split into its symbol and its segments, whether there are colons between them or not. -/
theorem split?_segmented (word : isSymbol symbol = true) (mark : colons = "::" ∨ colons = "") (some : texts ≠ []) :
    split? (segmented symbol colons texts) = .some (symbol, segmentedText texts) := by
  obtain ⟨rest, begins, last⟩ := exists_segmentedText some
  have noParen : '(' ∉ symbol.toList ++ colons.toList := by
    intro mem
    rcases List.mem_append.1 mem with mem | mem
    · exact not_mem_symbol word (by decide) mem
    · rcases mark with rfl | rfl
      · exact absurd mem (by decide)
      · exact absurd mem (by decide)
  have whole : trim (segmented symbol colons texts).toList = symbol.toList ++ colons.toList ++ segmentedText texts := by
    rw [toList_segmented]
    apply trim_eq_self
    · obtain ⟨c, cs, starts⟩ := List.exists_cons_of_ne_nil (symbol_ne_nil word)
      intro d head
      obtain rfl : c = d := by simpa [starts] using head
      exact isBlank_of_isWordChar (mem_symbol word c (starts ▸ List.mem_cons_self))
    · intro d ends
      rw [List.getLast?_append, last] at ends
      obtain rfl : ')' = d := by simpa using ends
      decide
  rw [split?, whole, begins, cutAtSegment?_of_no_paren noParen]
  simp only [Option.map_some]
  rw [dropColons_symbol word mark, trim_symbol word, String.ofList_toList]

/-! ## The whole declaration -/

theorem read_of_segments (word : isSymbol symbol = true) (mark : colons = "::" ∨ colons = "")
    (declared : List.Forall₂ SegmentDeclares texts (params ++ [result])) :
    read (segmented symbol colons texts) =
      if params.any Signature.isVoid then .error (.unsupportedType "()") else .ok ⟨symbol, params, result⟩ := by
  have some : texts ≠ [] := by
    rintro rfl
    have length := declared.length_eq
    simp at length
  rw [read, split?_segmented word mark some]
  simp only [if_pos word, segments_segmentedText declared, ok_bind, List.getLast?_append, List.getLast?_singleton,
    Option.some_or, List.dropLast_concat]

/-! ## Reading after writing -/

theorem segmentType_settled (inner : List Char) : Ensures (segmentType inner) Signature.Settled := by
  intro s declares
  unfold segmentType at declares
  split at declares
  · obtain rfl := Except.ok.inj declares
    exact settled_void
  · exact Signature.settled_of_read declares

theorem segments_settled (s : List Char) : Ensures (segments s) fun types => ∀ type ∈ types, type.Settled := by
  fun_induction segments s with
  | case1 s blank =>
    apply Ensures.ok
    nofun
  | case2 s c cs starts ih =>
    refine (Ensures.any (segment (c :: cs))).bind fun next _ => ?_
    refine (segmentType_settled next.1).bind fun first settled => ?_
    dsimp only
    refine (ih next.2.1 next.2.2).bind fun others allSettled => ?_
    exact .ok (List.forall_mem_cons.2 ⟨settled, allSettled⟩)

/-- A declaration that was read has a symbol, types that were read, and no parameter without a value. -/
theorem settled_of_read {text : String} {d : Declaration} (h : read text = .ok d) :
    isSymbol d.symbol = true ∧ (∀ type ∈ d.params ++ [d.result], type.Settled) ∧ d.params.any Signature.isVoid = false := by
  unfold read at h
  split at h
  · cases h
  · next symbol rest _ =>
    split at h
    · next word =>
      cases reads : segments rest with
      | error fault => rw [reads] at h; cases h
      | ok types =>
        rw [reads, ok_bind] at h
        split at h
        · cases h
        · next result last =>
          split at h
          · cases h
          · next noVoid =>
            obtain rfl := Except.ok.inj h
            refine ⟨word, ?_, by simpa using noVoid⟩
            rw [List.dropLast_append_getLast? result last]
            exact segments_settled rest types reads
    · cases h

theorem read_written_of_settled {s : Signature} (settled : s.Settled) : Signature.read s.written = .ok s := by
  rw [Signature.read_written_eq_reread, Signature.reread_of_not_hasVoidBelow settled.1,
    Signature.expanded_eq_self settled.2]

theorem written_segments (params : List Signature) (result : Signature) :
    String.join (params.map fun p => writtenSegment p ++ ";") ++ writtenSegment result =
      ";".intercalate ((params ++ [result]).map writtenSegment) := by
  induction params with
  | nil => simp
  | cons p params ih =>
    rw [List.map_cons, String.join_cons, String.append_assoc, ih, List.cons_append, List.map_cons,
      String.intercalate_cons_of_ne_nil (by simp)]

theorem written_eq_segmented (d : Declaration) :
    d.written = segmented d.symbol "::" ((d.params ++ [d.result]).map Signature.written) := by
  rw [written, String.append_assoc, written_segments, segmented, List.map_map]
  rfl

theorem read_written_of_read {text : String} {d : Declaration} (h : read text = .ok d) : read d.written = .ok d := by
  obtain ⟨word, settled, noVoid⟩ := settled_of_read h
  have declared : List.Forall₂ SegmentDeclares ((d.params ++ [d.result]).map Signature.written) (d.params ++ [d.result]) := by
    rw [List.forall₂_map_left_iff, List.forall₂_same]
    exact fun type mem => .type (read_written_of_settled (settled type mem))
  rw [written_eq_segmented, read_of_segments word (.inl rfl) declared, noVoid]
  rfl

/-- **Declarations are read segment by segment.** A symbol, with colons behind it or not, and segments with texts that are read
as signatures or are blank, are read as the declaration of these types; if a parameter is void they are refused. What is read
from any text is read back from its written form. -/
theorem read_symbol_segments :
    (∀ (symbol colons : String) (texts : List String) (params : List Signature) (result : Signature),
      isSymbol symbol = true → (colons = "::" ∨ colons = "") → List.Forall₂ SegmentDeclares texts (params ++ [result]) →
        ((∀ p ∈ params, p.isVoid = false) →
          read (segmented symbol colons texts) = .ok ⟨symbol, params, result⟩) ∧
        ((∃ p ∈ params, p.isVoid = true) →
          read (segmented symbol colons texts) = .error (.unsupportedType "()"))) ∧
      ∀ (text : String) (d : Declaration), read text = .ok d → read d.written = .ok d := by
  refine ⟨?_, fun text d reads => read_written_of_read reads⟩
  intro symbol colons texts params result word mark declared
  rw [read_of_segments word mark declared]
  constructor
  · intro noVoid
    have none : params.any Signature.isVoid = false := by simpa using noVoid
    rw [none]
    rfl
  · intro void
    have some : params.any Signature.isVoid = true := by simpa using void
    rw [some]
    rfl

/-- A symbol may end like a segment begins, and the text of a parameter may have parentheses of its own. -/
theorem read_type_symbol_segments :
    let pair : Signature := ⟨.borrowedMut, .tuple [.owned (.primitive (.int .i64)), .owned (.primitive .float64)]⟩
    read "typetype(&mut Tuple(i64, f64));type( )" = .ok ⟨"type", [pair], .owned .void⟩ ∧
      read "_::type(());type(bool)" = .error (.unsupportedType "()") ∧
      read "type::type(&mut Tuple(i64, f64));type(())" = .ok ⟨"type", [pair], .owned .void⟩ := by
  intro pair
  have pairRead : Signature.read "&mut Tuple(i64, f64)" = .ok pair := Signature.read_written_eq_reread pair
  have void : Signature.read "()" = .ok (.owned .void) := Signature.read_written_eq_reread (.owned .void)
  have bool : Signature.read "bool" = .ok (.owned (.primitive .bool)) :=
    Signature.read_written_eq_reread (.owned (.primitive .bool))
  have blankResult := (read_symbol_segments.1 "type" "" ["&mut Tuple(i64, f64)", " "] [_] (.owned .void) (by decide) (.inr rfl)
    (.cons (.type pairRead) (.cons (.blank (by decide)) .nil))).1 (by simp [Signature.isVoid, pair])
  have voidParam := (read_symbol_segments.1 "_" "::" ["()", "bool"] [_] _ (by decide) (.inl rfl)
    (.cons (.type void) (.cons (.type bool) .nil))).2 ⟨_, List.mem_singleton_self _, rfl⟩
  exact ⟨blankResult, voidParam, read_symbol_segments.2 _ _ blankResult⟩

end NativeBridge.Declaration
