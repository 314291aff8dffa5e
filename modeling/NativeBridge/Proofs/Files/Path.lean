/-
Paths and the steps that they take. A path is cut at its slashes and put together again; the names among its pieces are the steps
down, and the paths above a path take fewer and fewer of its steps.

- `Path.split_joined`, `Path.exists_mem_split_iff`: pieces are what is left between slashes.
- `Path.pieces_child`: a name at the end of a path is one more piece, behind the steps of the path.
- `Path.isAbove_of_mem_parents`: a path above another one is shorter, begins where that one does, and takes some of its first
  steps.
- `Path.exists_mem_parents`, `Path.pairwise_parents`: every number of first steps is taken by a path above, the most steps first.
-/
import Mathlib.Tactic
import NativeBridge.Files.Tree

namespace NativeBridge.Path

variable {p q : Path} {name : String} {s first piece : List Char} {body pieces : List (List Char)}

/-! ## Cutting at slashes -/

theorem split_ne_nil (s : List Char) : split s ≠ [] := by
  cases s with
  | nil => exact List.cons_ne_nil _ _
  | cons c rest =>
    rw [split]
    split
    · exact List.cons_ne_nil _ _
    · split <;> exact List.cons_ne_nil _ _

theorem split_cons_slash (s : List Char) : split ('/' :: s) = [] :: split s := by
  rw [split]
  cases cut : split s with
  | nil => exact absurd cut (split_ne_nil s)
  | cons first others => rfl

theorem split_append_slash (s t : List Char) : split (s ++ '/' :: t) = split s ++ split t := by
  induction s with
  | nil => exact split_cons_slash t
  | cons c rest ih =>
    rw [List.cons_append, split, split, ih]
    cases cut : split rest with
    | nil => exact absurd cut (split_ne_nil rest)
    | cons first others =>
      simp only [List.cons_append]
      split <;> rfl

/-- the pieces have all characters but the slashes -/
theorem exists_mem_split_iff {c : Char} : (∃ piece ∈ split s, c ∈ piece) ↔ c ∈ s ∧ c ≠ '/' := by
  induction s with
  | nil => simp [split]
  | cons d rest ih =>
    rw [split]
    cases cut : split rest with
    | nil => exact absurd cut (split_ne_nil rest)
    | cons first others =>
      rw [cut] at ih
      simp only [List.mem_cons, exists_eq_or_imp] at ih ⊢
      by_cases slash : d = '/'
      · simp only [slash, if_true, List.mem_cons, exists_eq_or_imp, List.not_mem_nil, false_or, ih]
        grind
      · simp only [slash, if_false, List.mem_cons, exists_eq_or_imp]
        grind

theorem slash_not_mem_of_mem_split (mem : piece ∈ split s) : '/' ∉ piece :=
  fun slash => (exists_mem_split_iff.1 ⟨piece, mem, slash⟩).2 rfl

theorem split_of_slash_not_mem (free : '/' ∉ s) : split s = [s] := by
  induction s with
  | nil => rfl
  | cons c rest ih =>
    simp only [List.mem_cons, not_or] at free
    rw [split, ih free.2]
    exact if_neg (Ne.symm free.1)

theorem joined_append (some : pieces ≠ []) (more : body ≠ []) :
    joined (pieces ++ body) = joined pieces ++ '/' :: joined body := by
  induction pieces with
  | nil => exact absurd rfl some
  | cons first others ih =>
    cases others with
    | nil =>
      obtain ⟨next, rest, rfl⟩ := List.exists_cons_of_ne_nil more
      simp [joined, List.intercalate]
    | cons second rest =>
      have := ih (by simp)
      simp [joined, List.intercalate] at this ⊢
      exact this

theorem split_joined (some : pieces ≠ []) (free : ∀ piece ∈ pieces, '/' ∉ piece) : split (joined pieces) = pieces := by
  induction pieces with
  | nil => exact absurd rfl some
  | cons first others ih =>
    obtain ⟨firstFree, othersFree⟩ := List.forall_mem_cons.1 free
    have alone : split (joined [first]) = [first] := by
      simpa [joined, List.intercalate] using split_of_slash_not_mem firstFree
    cases others with
    | nil => exact alone
    | cons second rest =>
      rw [← List.singleton_append, joined_append (by simp) (by simp), split_append_slash, alone, ih (by simp) othersFree]

/-! ## Steps -/

/-- the names among the pieces of a path -/
def steps (pieces : List (List Char)) : List String := (pieces.filter fun piece => !isIdle piece).map String.ofList

theorem names_eq (p : Path) : FileTree.names p = steps p.pieces := rfl

@[simp] theorem steps_nil : steps [] = [] := rfl

@[simp] theorem steps_append (pieces body : List (List Char)) : steps (pieces ++ body) = steps pieces ++ steps body := by
  simp [steps]

theorem steps_cons_of_isIdle (idle : isIdle piece = true) : steps (piece :: body) = steps body := by simp [steps, idle]

theorem steps_cons_of_not_isIdle (idle : isIdle piece = false) :
    steps (piece :: body) = String.ofList piece :: steps body := by simp [steps, idle]

/-- what is dropped at the end of a path leads nowhere -/
theorem steps_reverse_dropWhile (pieces : List (List Char)) :
    steps (pieces.dropWhile isIdle).reverse = steps pieces.reverse := by
  induction pieces with
  | nil => rfl
  | cons piece rest ih =>
    rw [List.dropWhile_cons]
    split
    · next idle => rw [ih, List.reverse_cons, steps_append, steps_cons_of_isIdle idle, steps_nil, List.append_nil]
    · rfl

theorem slash_not_mem_of_mem_pieces (mem : piece ∈ p.pieces) : '/' ∉ piece := slash_not_mem_of_mem_split mem

theorem exists_pieces (p : Path) : ∃ first body, p.pieces = first :: body := List.exists_cons_of_ne_nil (split_ne_nil _)

theorem joined_pieces (p : Path) : joined p.pieces = p.text.toList := joined_split _

/-- an absolute path has nothing before its first slash, and something behind it, were it the empty piece -/
theorem isAbsolute_iff (cut : p.pieces = first :: body) : p.isAbsolute = true ↔ first = [] ∧ body ≠ [] := by
  have whole := joined_pieces p
  rw [cut] at whole
  rw [isAbsolute, beq_iff_eq, ← whole]
  have free : '/' ∉ first := slash_not_mem_of_mem_pieces (cut ▸ List.mem_cons_self)
  cases body with
  | nil =>
    simp only [joined, List.intercalate, List.intersperse_singleton, List.flatten_singleton, ne_eq, not_true_eq_false, and_false,
      iff_false]
    exact fun slash => free (List.mem_of_head? slash)
  | cons second rest =>
    rw [← List.singleton_append, joined_append (by simp) (by simp)]
    cases first with
    | nil => simp [joined, List.intercalate]
    | cons c others =>
      simp only [List.mem_cons, not_or] at free
      simp [joined, List.intercalate, Ne.symm free.1]

theorem pieces_ofPieces (firstFree : '/' ∉ first) (free : ∀ piece ∈ body, '/' ∉ piece) :
    (ofPieces first body).pieces = if first = [] ∧ body = [] then [[], []] else first :: body := by
  unfold ofPieces
  split
  · rfl
  · rw [pieces, String.toList_ofList, split_joined (by simp) (List.forall_mem_cons.2 ⟨firstFree, free⟩)]

theorem isAbsolute_ofPieces (firstFree : '/' ∉ first) (free : ∀ piece ∈ body, '/' ∉ piece) :
    (ofPieces first body).isAbsolute = true ↔ first = [] := by
  have cut := pieces_ofPieces firstFree free
  split at cut
  · next root =>
    rw [isAbsolute_iff cut]
    simp [root]
  · next proper =>
    rw [isAbsolute_iff cut]
    exact ⟨And.left, fun empty => ⟨empty, fun nothing => proper ⟨empty, nothing⟩⟩⟩

/-! ## Sizes -/

theorem size_text (p : Path) : p.text.utf8ByteSize = (String.ofList (joined p.pieces)).utf8ByteSize := by
  rw [joined_pieces, String.ofList_toList]

theorem joined_ne_nil (free : ∀ piece ∈ pieces, '/' ∉ piece) (mem : piece ∈ pieces) (some : piece ≠ []) : joined pieces ≠ [] := by
  intro nothing
  have cut := split_joined (List.ne_nil_of_mem mem) free
  rw [nothing] at cut
  rw [← cut] at mem
  exact some (List.mem_singleton.1 mem)

theorem size_ofList_pos (some : s ≠ []) : 0 < (String.ofList s).utf8ByteSize := by
  rw [Nat.pos_iff_ne_zero, Ne, String.utf8ByteSize_eq_zero_iff, ← String.toList_eq_nil_iff, String.toList_ofList]
  exact some

/-- a path that loses its last steps is shorter, also where the slash of the root is put back -/
theorem size_ofPieces_lt (cut : p.pieces = first :: (body ++ pieces)) (mem : piece ∈ pieces) (some : piece ≠ []) :
    (ofPieces first body).text.utf8ByteSize < p.text.utf8ByteSize := by
  have lost : joined pieces ≠ [] := by
    refine joined_ne_nil (fun other there => slash_not_mem_of_mem_pieces (p := p) ?_) mem some
    rw [cut]
    exact List.mem_cons_of_mem _ (List.mem_append_right _ there)
  have whole : joined p.pieces = joined (first :: body) ++ ['/'] ++ joined pieces := by
    rw [cut, ← List.cons_append, joined_append (by simp) (List.ne_nil_of_mem mem)]
    simp
  have left := size_ofList_pos lost
  have slash : (String.ofList ['/']).utf8ByteSize = 1 := by decide +kernel
  rw [size_text p, whole, String.ofList_append, String.utf8ByteSize_append, String.ofList_append, String.utf8ByteSize_append,
    slash]
  unfold ofPieces
  split
  · have root : "/".utf8ByteSize = 1 := by decide +kernel
    simp only [root]
    omega
  · simp only []
    omega

/-! ## A name at the end -/

theorem isAbsolute_of_slash_not_mem (free : '/' ∉ name.toList) : (Path.mk name).isAbsolute = false := by
  rw [isAbsolute, beq_eq_false_iff_ne]
  exact fun slash => free (List.mem_of_head? slash)

/-- the text of a path with a name at its end -/
theorem text_child (free : '/' ∉ name.toList) :
    (p.child name).text = p.text ++ name ∧ (p.text = "" ∨ p.text.toList.getLast? = some '/') ∨
      (p.child name).text = p.text ++ "/" ++ name ∧ p.text ≠ "" := by
  unfold child join
  rw [isAbsolute_of_slash_not_mem free, if_neg Bool.false_ne_true]
  split
  · next ends => exact .inl ⟨rfl, ends.imp_left String.toList_eq_nil_iff.1⟩
  · next ends => exact .inr ⟨rfl, fun empty => ends (.inl (String.toList_eq_nil_iff.2 empty))⟩

theorem pieces_child (free : '/' ∉ name.toList) : ∃ front, (p.child name).pieces = front ++ [name.toList] ∧
    steps front = FileTree.names p ∧ ∀ piece ∈ front, piece ∈ p.pieces := by
  obtain ⟨text, empty | slash⟩ | ⟨text, -⟩ := text_child (p := p) free
  · refine ⟨[], ?_, ?_, nofun⟩
    · rw [pieces, text, empty, String.empty_append, split_of_slash_not_mem free, List.nil_append]
    · rw [names_eq, pieces, empty]
      rfl
  · obtain ⟨front, whole⟩ := List.getLast?_eq_some_iff.1 slash
    have here : p.pieces = split front ++ [[]] := by rw [pieces, whole, split_append_slash]; rfl
    refine ⟨split front, ?_, ?_, fun piece mem => here ▸ List.mem_append_left _ mem⟩
    · rw [pieces, text, String.toList_append, whole, List.append_assoc, List.singleton_append, split_append_slash,
        split_of_slash_not_mem free]
    · rw [names_eq, here, steps_append, steps_cons_of_isIdle rfl, steps_nil, List.append_nil]
  · refine ⟨p.pieces, ?_, rfl, fun piece mem => mem⟩
    have slash : "/".toList = ['/'] := rfl
    rw [pieces, text, String.toList_append, String.toList_append, slash, List.append_assoc, List.singleton_append,
      split_append_slash, split_of_slash_not_mem free, pieces]

theorem names_child (free : '/' ∉ name.toList) (idle : isIdle name.toList = false) :
    FileTree.names (p.child name) = FileTree.names p ++ [name] := by
  obtain ⟨front, cut, same, -⟩ := pieces_child (p := p) free
  rw [names_eq, cut, steps_append, same, steps_cons_of_not_isIdle idle, steps_nil, String.ofList_toList]

theorem isAbsolute_child (free : '/' ∉ name.toList) : (p.child name).isAbsolute = p.isAbsolute := by
  obtain ⟨text, empty | slash⟩ | ⟨text, some⟩ := text_child (p := p) free
  · have nameless : p.isAbsolute = false := by simp [isAbsolute, empty]
    rw [nameless, ← isAbsolute_of_slash_not_mem free, isAbsolute, isAbsolute, text, empty, String.empty_append]
  · have some : p.text.toList ≠ [] := fun empty => by simp [empty] at slash
    rw [isAbsolute, isAbsolute, text, String.toList_append, List.head?_append_of_ne_nil _ some]
  · have some : p.text.toList ≠ [] := mt String.toList_eq_nil_iff.1 some
    rw [isAbsolute, isAbsolute, text, String.append_assoc, String.toList_append, List.head?_append_of_ne_nil _ some]

/-- a shorter path is shorter by at least the slash that a name may need -/
theorem size_child_le (free : '/' ∉ name.toList) (shorter : q.text.utf8ByteSize < p.text.utf8ByteSize) :
    (q.child name).text.utf8ByteSize ≤ (p.child name).text.utf8ByteSize := by
  have slash : "/".utf8ByteSize = 1 := by decide +kernel
  obtain ⟨mine, -⟩ | ⟨mine, -⟩ := text_child (p := q) free <;> obtain ⟨other, -⟩ | ⟨other, -⟩ := text_child (p := p) free <;>
    simp only [mine, other, String.utf8ByteSize_append, slash] <;> omega

/-! ## The paths above a path -/

theorem mem_above_nil_iff : q ∈ above first [] ↔ first ≠ [] ∧ q = ⟨""⟩ := by
  rw [above]
  split
  · next root => simp [root]
  · next some => simp [some]

/-- the nearest path above is there if the last piece leads somewhere -/
theorem mem_above_cons_iff {rest : List (List Char)} : q ∈ above first (piece :: rest) ↔
    isIdle piece = false ∧ q = ofPieces first (rest.dropWhile isIdle).reverse ∨ q ∈ above first rest := by
  rw [above]
  cases idle : isIdle piece with
  | true => simp
  | false => simp

/-- a path above a path of these pieces, last piece first, has lost one piece that leads somewhere, and what is idle before it -/
theorem cases_of_mem_above {rev : List (List Char)} (mem : q ∈ above first rev) :
    first ≠ [] ∧ q = ⟨""⟩ ∨ ∃ piece rest, piece :: rest <:+ rev ∧ isIdle piece = false ∧
      q = ofPieces first (rest.dropWhile isIdle).reverse := by
  induction rev with
  | nil => exact .inl (mem_above_nil_iff.1 mem)
  | cons piece rest ih =>
    obtain ⟨idle, rfl⟩ | mem := mem_above_cons_iff.1 mem
    · exact .inr ⟨piece, rest, List.suffix_rfl, idle, rfl⟩
    · obtain relative | ⟨other, before, part, same⟩ := ih mem
      · exact .inl relative
      · exact .inr ⟨other, before, part.trans (List.suffix_cons _ _), same⟩

theorem names_ofPieces (firstFree : '/' ∉ first) (free : ∀ piece ∈ body, '/' ∉ piece) :
    FileTree.names (ofPieces first body) = steps (first :: body) := by
  rw [names_eq, pieces_ofPieces firstFree free]
  split
  · next root => obtain ⟨rfl, rfl⟩ := root; rfl
  · rfl

/-- the steps of a path without its last step, and without what is idle before that -/
theorem names_ofPieces_dropWhile {rest : List (List Char)} (firstFree : '/' ∉ first) (free : ∀ piece ∈ rest, '/' ∉ piece) :
    FileTree.names (ofPieces first (rest.dropWhile isIdle).reverse) = steps (first :: rest.reverse) := by
  rw [names_ofPieces firstFree, ← List.singleton_append, steps_append, steps_reverse_dropWhile, ← steps_append,
    List.singleton_append]
  exact fun piece mem => free piece ((List.dropWhile_sublist _).mem (List.mem_reverse.1 mem))

theorem names_of_mem_above {rev : List (List Char)} (firstFree : '/' ∉ first) (free : ∀ piece ∈ rev, '/' ∉ piece)
    (mem : q ∈ above first rev) : FileTree.names q <+: steps (first :: rev.reverse) := by
  obtain ⟨-, rfl⟩ | ⟨piece, rest, part, -, rfl⟩ := cases_of_mem_above mem
  · exact List.nil_prefix
  · have part := (List.suffix_cons piece rest).trans part
    rw [names_ofPieces_dropWhile firstFree fun other there => free other (part.mem there)]
    obtain ⟨dropped, whole⟩ := List.reverse_prefix.2 part
    rw [← whole, ← List.cons_append, steps_append]
    exact List.prefix_append _ _

/-- every list of fewer first steps is taken by a path above -/
theorem exists_mem_above {rev : List (List Char)} {dir : List String} (firstFree : '/' ∉ first)
    (free : ∀ piece ∈ rev, '/' ∉ piece) (fewer : dir <+: steps (first :: rev.reverse))
    (proper : dir ≠ steps (first :: rev.reverse)) : ∃ q ∈ above first rev, FileTree.names q = dir := by
  induction rev with
  | nil =>
    cases idle : isIdle first with
    | true =>
      rw [List.reverse_nil, steps_cons_of_isIdle idle, steps_nil] at fewer proper
      exact absurd (List.prefix_nil.1 fewer) proper
    | false =>
      rw [List.reverse_nil, steps_cons_of_not_isIdle idle, steps_nil] at fewer proper
      obtain rfl : dir = [] := (List.prefix_concat_iff.1 fewer).elim (absurd · proper) List.prefix_nil.1
      have some : first ≠ [] := by
        rintro rfl
        cases idle
      exact ⟨⟨""⟩, mem_above_nil_iff.2 ⟨some, rfl⟩, rfl⟩
  | cons piece rest ih =>
    obtain ⟨pieceFree, restFree⟩ := List.forall_mem_cons.1 free
    rw [List.reverse_cons, ← List.cons_append, steps_append] at fewer proper
    by_cases next : dir = steps (first :: rest.reverse)
    · have idle : isIdle piece = false := by
        refine Bool.eq_false_iff.2 fun idle => proper ?_
        rw [next, steps_cons_of_isIdle idle, steps_nil, List.append_nil]
      exact ⟨_, mem_above_cons_iff.2 (.inl ⟨idle, rfl⟩), (names_ofPieces_dropWhile firstFree restFree).trans next.symm⟩
    · have fewer : dir <+: steps (first :: rest.reverse) := by
        cases idle : isIdle piece with
        | true => rwa [steps_cons_of_isIdle idle, steps_nil, List.append_nil] at fewer
        | false =>
          rw [steps_cons_of_not_isIdle idle, steps_nil] at fewer proper
          exact (List.prefix_concat_iff.1 fewer).resolve_left proper
      obtain ⟨q, mem, same⟩ := ih restFree fewer next
      exact ⟨q, mem_above_cons_iff.2 (.inr mem), same⟩

theorem pairwise_above {rev : List (List Char)} (firstFree : '/' ∉ first) (free : ∀ piece ∈ rev, '/' ∉ piece) :
    (above first rev).Pairwise fun nearer farther => FileTree.names farther <+: FileTree.names nearer := by
  induction rev with
  | nil =>
    rw [above]
    split
    · exact .nil
    · exact List.pairwise_singleton _ _
  | cons piece rest ih =>
    obtain ⟨-, restFree⟩ := List.forall_mem_cons.1 free
    rw [above]
    split
    · exact ih restFree
    · refine List.pairwise_cons.2 ⟨fun q mem => ?_, ih restFree⟩
      rw [names_ofPieces_dropWhile firstFree restFree]
      exact names_of_mem_above firstFree restFree mem

/-! ## Cutting a path back -/

theorem parents_eq (cut : p.pieces = first :: body) : p.parents = above first body.reverse := by rw [parents, cut]

theorem slash_not_mem_of_cut (cut : p.pieces = first :: body) : '/' ∉ first ∧ ∀ piece ∈ body.reverse, '/' ∉ piece := by
  have free : ∀ piece ∈ first :: body, '/' ∉ piece := fun piece mem => slash_not_mem_of_mem_pieces (cut ▸ mem)
  exact ⟨free first List.mem_cons_self, fun piece mem => free piece (List.mem_cons_of_mem _ (List.mem_reverse.1 mem))⟩

/-- what stays of a path when it is cut back -/
structure IsAbove (q p : Path) : Prop where
  names : FileTree.names q <+: FileTree.names p
  isAbsolute : q.isAbsolute = p.isAbsolute
  pieces : ∀ piece ∈ q.pieces, piece = [] ∨ piece ∈ p.pieces
  shorter : q.text.utf8ByteSize < p.text.utf8ByteSize

theorem isAbove_of_mem_parents (mem : q ∈ p.parents) : q.IsAbove p := by
  obtain ⟨first, body, cut⟩ := exists_pieces p
  obtain ⟨firstFree, free⟩ := slash_not_mem_of_cut cut
  rw [parents_eq cut] at mem
  have names : FileTree.names q <+: FileTree.names p := by
    have := names_of_mem_above firstFree free mem
    rwa [List.reverse_reverse, ← cut, ← names_eq] at this
  obtain ⟨some, rfl⟩ | ⟨piece, rest, ⟨behind, whole⟩, idle, rfl⟩ := cases_of_mem_above mem
  · have relative : ¬ p.isAbsolute = true := fun absolute => some ((isAbsolute_iff cut).1 absolute).1
    refine ⟨names, (Bool.eq_false_iff.2 relative).symm, fun piece there => .inl (List.mem_singleton.1 there), ?_⟩
    refine Nat.pos_of_ne_zero fun empty => ?_
    rw [Path.pieces, String.utf8ByteSize_eq_zero_iff.1 empty] at cut
    exact some (List.cons.inj cut).1.symm
  · have parts : body = (rest.dropWhile isIdle).reverse ++ ((rest.takeWhile isIdle).reverse ++ piece :: behind.reverse) := by
      rw [← List.append_assoc, ← List.reverse_append, List.takeWhile_append_dropWhile]
      simpa using (congrArg List.reverse whole).symm
    have keptFree : ∀ piece ∈ (rest.dropWhile isIdle).reverse, '/' ∉ piece := fun piece mem =>
      free piece (List.mem_reverse.2 (parts ▸ List.mem_append_left _ mem))
    refine ⟨names, ?_, fun other there => ?_, ?_⟩
    · rw [Bool.eq_iff_iff, isAbsolute_ofPieces firstFree keptFree, isAbsolute_iff cut, parts]
      simp
    · rw [pieces_ofPieces firstFree keptFree] at there
      split at there
      · exact .inl (by simpa using there)
      · rw [cut, parts, ← List.cons_append]
        exact .inr (List.mem_append_left _ there)
    · refine size_ofPieces_lt (parts ▸ cut) (List.mem_append_right _ List.mem_cons_self) ?_
      rintro rfl
      cases idle

theorem exists_mem_parents {dir : List String} (fewer : dir <+: FileTree.names p) :
    ∃ q ∈ p :: p.parents, FileTree.names q = dir := by
  obtain ⟨first, body, cut⟩ := exists_pieces p
  obtain ⟨firstFree, free⟩ := slash_not_mem_of_cut cut
  by_cases whole : dir = FileTree.names p
  · exact ⟨p, List.mem_cons_self, whole.symm⟩
  · rw [names_eq, cut, ← List.reverse_reverse body] at fewer whole
    obtain ⟨q, mem, same⟩ := exists_mem_above firstFree free fewer whole
    exact ⟨q, List.mem_cons_of_mem _ (parents_eq cut ▸ mem), same⟩

theorem pairwise_parents (p : Path) :
    (p :: p.parents).Pairwise fun nearer farther => FileTree.names farther <+: FileTree.names nearer := by
  obtain ⟨first, body, cut⟩ := exists_pieces p
  obtain ⟨firstFree, free⟩ := slash_not_mem_of_cut cut
  refine List.pairwise_cons.2 ⟨fun q mem => (isAbove_of_mem_parents mem).names, ?_⟩
  rw [parents_eq cut]
  exact pairwise_above firstFree free

/-! ## Slashes at the end -/

/-- the path with so many more slashes at its end -/
def withSlashes (p : Path) (n : Nat) : Path := ⟨p.text ++ String.ofList (List.replicate n '/')⟩

theorem pieces_withSlashes (p : Path) (n : Nat) : (p.withSlashes n).pieces = p.pieces ++ List.replicate n [] := by
  rw [pieces, withSlashes, String.toList_append, String.toList_ofList]
  induction n with
  | zero => simp [pieces]
  | succ n ih =>
    rw [List.replicate_succ', ← List.append_assoc, split_append_slash, ih, List.replicate_succ', ← List.append_assoc]
    rfl

/-- they are no steps, so there are none of them to lose -/
theorem names_withSlashes (p : Path) (n : Nat) : FileTree.names (p.withSlashes n) = FileTree.names p := by
  rw [names_eq, names_eq, pieces_withSlashes, steps_append]
  induction n with
  | zero => simp
  | succ n ih => rw [List.replicate_succ, steps_cons_of_isIdle rfl, ih]

theorem parents_withSlashes (p : Path) (n : Nat) : (p.withSlashes n).parents = p.parents := by
  obtain ⟨first, body, cut⟩ := exists_pieces p
  have cut' : (p.withSlashes n).pieces = first :: (body ++ List.replicate n []) := by
    rw [pieces_withSlashes, cut, List.cons_append]
  rw [parents_eq cut, parents_eq cut', List.reverse_append, List.reverse_replicate]
  induction n with
  | zero => rfl
  | succ n ih => exact ih (by rw [pieces_withSlashes, cut, List.cons_append])

theorem size_withSlashes (p : Path) (n : Nat) : (p.withSlashes n).text.utf8ByteSize = p.text.utf8ByteSize + n := by
  have slashes : (String.ofList (List.replicate n '/')).utf8ByteSize = n := by
    induction n with
    | zero => rfl
    | succ n ih =>
      have slash : (String.ofList ['/']).utf8ByteSize = 1 := by decide +kernel
      rw [List.replicate_succ, ← List.singleton_append, String.ofList_append, String.utf8ByteSize_append, slash, ih, Nat.add_comm]
  rw [withSlashes, String.utf8ByteSize_append, slashes]

end NativeBridge.Path
