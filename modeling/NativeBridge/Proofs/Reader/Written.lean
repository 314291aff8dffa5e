/-
What the written form of a signature is read as. Wherever it stands, at the end of a text or in front of a mark that closes or
separates declarations, the reader comes back with the same parts, whatever depth they stand at, and leaves what follows.

- `Signature.reread`: the reader after the printer, as one function over signatures that knows no text.
- `beginsShape_written`: no written shape begins with a character or word that could be taken for a part of an access.
- `reads_base_list`, `reads_base_dict`, `reads_base_tuple`: a container is read back if its parts are.
- `Signature.read_written_eq_reread`: reading what was written is rereading, by induction over signatures.
-/
import NativeBridge.Proofs.Reader.Tokens
import NativeBridge.Proofs.Signature

namespace NativeBridge

open Text

/-! ## What the text of a signature is read as -/

/-- a declaration inside brackets: it must not be void -/
def Signature.asPart (s : Signature) : Except Fault Signature :=
  if s.isVoid then .error (.unsupportedType "()") else .ok s

mutual

/-- what the text of a shape is read as -/
def Shape.reread : Shape → Except Fault Shape
  | .tuple elems => do
    let elems ← Signature.rereadParts elems
    .ok (.tuple elems)
  | .list elem => do
    let elem ← elem.reread >>= Signature.asPart
    .ok (.list elem)
  | .dict key value => do
    let value ← value.reread >>= Signature.asPart
    .ok (.dict key value)
  | .hole (some .list) => .ok (.list .word)
  | .hole head => .ok (.hole head)
  | .primitive kind => .ok (.primitive kind)
  | .void => .ok .void

/-- what the text of a signature is read as -/
def Signature.reread : Signature → Except Fault Signature
  | ⟨access, shape⟩ => do
    let shape ← shape.reread
    .ok ⟨access, shape⟩

/-- what the texts of several signatures inside brackets are read as -/
def Signature.rereadParts : List Signature → Except Fault (List Signature)
  | [] => .ok []
  | elem :: rest => do
    let elem ← elem.reread >>= Signature.asPart
    let rest ← Signature.rereadParts rest
    .ok (elem :: rest)

end

namespace Reader

variable {source s t rest : List Char} {γ δ α β : Type}

theorem ok_bind (a : α) (f : α → Except Fault β) : (.ok a : Except Fault α) >>= f = f a := rfl

theorem error_bind (fault : Fault) (f : α → Except Fault β) : (.error fault : Except Fault α) >>= f = .error fault := rfl

/-- two computations come out alike: with values that belong together, or with the same fault -/
inductive Alike (R : γ → α → Prop) : Except Fault γ → Except Fault α → Prop
  | value {c : γ} {a : α} (h : R c a) : Alike R (.ok c) (.ok a)
  | fault (f : Fault) : Alike R (.error f) (.error f)

theorem Alike.bind {R : γ → α → Prop} {Q : δ → β → Prop} {x : Except Fault γ} {y : Except Fault α}
    {f : γ → Except Fault δ} {g : α → Except Fault β} (h : Alike R x y) (next : ∀ c a, R c a → Alike Q (f c) (g a)) :
    Alike Q (x >>= f) (y >>= g) := by
  cases h with
  | value h => exact next _ _ h
  | fault f => exact .fault f

theorem Alike.bind_eq {R : γ → α → Prop} {x : Except Fault γ} {y : Except Fault α} {f : γ → Except Fault α}
    (h : Alike R x y) (next : ∀ c a, R c a → f c = .ok a) : x >>= f = y := by
  cases h with
  | value h => exact next _ _ h
  | fault f => rfl

/-- the reader comes to the outcome, and leaves the rest where this is a value -/
def Reads (x : Except Fault (α × Shorter s)) (rest : List Char) (outcome : Except Fault α) : Prop :=
  Alike (fun c a => c.1 = a ∧ c.2.1 = rest) x outcome

/-- the reader comes to an owned value of the shape that is the outcome, and leaves the rest -/
def ReadsShape (x : Except Fault (Signature × Shorter s)) (rest : List Char) (outcome : Except Fault Shape) : Prop :=
  Alike (fun c shape => c.1 = .owned shape ∧ c.2.1 = rest) x outcome

/-! ## Names -/

theorem isWord_primitive (kind : Primitive) : IsWord kind.name.toList ∧ kind.name.toList ≠ "mut".toList := by
  cases kind with
  | int w => cases w <;> decide
  | float32 | float64 | bool | text => decide

theorem isWord_bareName (head : Container) : IsWord head.bareName.toList ∧ head.bareName.toList ≠ "mut".toList := by
  cases head <;> decide

theorem isWord_keyKind (key : KeyKind) : IsWord key.name.toList ∧ key.name.toList ≠ "mut".toList := by
  cases key with
  | int w => cases w <;> decide
  | bool | text => decide

theorem named?_primitive (kind : Primitive) : named? kind.name = some (.primitive kind) := by
  cases kind with
  | int w => cases w <;> rfl
  | float32 | float64 | bool | text => rfl

/-! ## Shapes without parts -/

/-- A name in front of something that is not a part of it: no parenthesis is read, and the path ends with the name. -/
theorem path_of_name (source : List Char) {name : String} (word : IsWord name.toList) (ends : EndsWord rest)
    (h : trimStart s = name.toList ++ rest) :
    char? '(' s = none ∧ ∃ left, path source s = .ok (name, left) ∧ left.1 = rest :=
  ⟨char?_eq_none_of_word word h (by decide), path_of_trimStart source word ends h⟩

theorem reads_base_of_name {name : String} {shape : Shape} (word : IsWord name.toList) (named : named? name = some shape)
    (closed : Closed rest) (h : trimStart s = name.toList ++ rest) : ReadsShape (base source s) rest (.ok shape) := by
  obtain ⟨noParen, left, reads, leaves⟩ := path_of_name source word closed.endsWord h
  have noAngle : char? '<' left.1 = none := by rw [leaves]; exact closed.char?_eq_none (by decide)
  have noTuple : char? '(' left.1 = none := by rw [leaves]; exact closed.char?_eq_none (by decide)
  rw [base]
  simp only [noParen, reads, ok_bind, noAngle, noTuple, ite_self, named]
  exact .value ⟨rfl, leaves⟩

theorem reads_base_void (h : trimStart s = '(' :: ')' :: rest) : ReadsShape (base source s) rest (.ok .void) := by
  obtain ⟨inner, readsOpen, afterOpen⟩ := char?_of_trimStart h
  have starts : trimStart inner.1 = ')' :: rest := by rw [afterOpen, trimStart_cons rfl]
  obtain ⟨left, readsClose, leaves⟩ := char?_of_trimStart starts
  have empty : list source inner.1 = .ok ([], false, left) := by rw [list]; simp only [readsClose]
  rw [base]
  simp only [readsOpen, empty, ok_bind]
  exact .value ⟨rfl, leaves⟩

/-! ## How the texts begin -/

theorem written_tuple_append (elems : List Signature) (rest : List Char) : (Shape.tuple elems).written.toList ++ rest =
    "Tuple".toList ++ '(' :: ((Signature.writtenList elems).toList ++ ')' :: rest) := by
  simp [Shape.written]

theorem written_list_append (elem : Signature) (rest : List Char) : (Shape.list elem).written.toList ++ rest =
    "List".toList ++ '<' :: (elem.written.toList ++ '>' :: rest) := by
  simp [Shape.written]

theorem written_dict_append (key : KeyKind) (value : Signature) (rest : List Char) :
    (Shape.dict key value).written.toList ++ rest =
      "Dict".toList ++ '<' :: (key.name.toList ++ ',' :: ' ' :: (value.written.toList ++ '>' :: rest)) := by
  simp [Shape.written]

theorem written_append (access : Access) (shape : Shape) (rest : List Char) :
    (Signature.written ⟨access, shape⟩).toList ++ rest = access.mark.toList ++ (shape.written.toList ++ rest) := by
  simp [Signature.written]

/-- The written form of a shape begins with a word or with the parenthesis of a void one. -/
theorem beginsShape_written (shape : Shape) (closed : Closed rest) : BeginsShape (shape.written.toList ++ rest) := by
  cases shape with
  | primitive kind =>
    obtain ⟨word, other⟩ := isWord_primitive kind
    exact .word word closed.endsWord other
  | tuple elems =>
    rw [written_tuple_append]
    exact .word (by decide) (endsWord_cons (by decide)) (by decide)
  | list elem =>
    rw [written_list_append]
    exact .word (by decide) (endsWord_cons (by decide)) (by decide)
  | dict key value =>
    rw [written_dict_append]
    exact .word (by decide) (endsWord_cons (by decide)) (by decide)
  | hole head =>
    cases head with
    | none => exact .word (w := "usize".toList) (by decide) closed.endsWord (by decide)
    | some head =>
      obtain ⟨word, other⟩ := isWord_bareName head
      exact .word word closed.endsWord other
  | void => exact .paren _

theorem written_begins (s : Signature) (closed : Closed rest) :
    trimStart (s.written.toList ++ rest) = s.written.toList ++ rest ∧ (s.written.toList ++ rest).head? ≠ some ')' := by
  obtain ⟨access, shape⟩ := s
  have begins := beginsShape_written shape closed
  rw [written_append]
  cases access with
  | owned => exact ⟨begins.trimStart_eq, begins.head?_ne (by decide)⟩
  | borrowed => exact ⟨trimStart_cons (c := '&') rfl, by simp [Access.mark]⟩
  | borrowedMut => exact ⟨trimStart_cons (c := '&') rfl, by simp [Access.mark]⟩
  | rawConst => exact ⟨trimStart_cons (c := '*') rfl, by simp [Access.mark]⟩
  | rawMut => exact ⟨trimStart_cons (c := '*') rfl, by simp [Access.mark]⟩

/-! ## Containers -/

/-- wherever the text of the signature stands in front of a closing mark, it is read as what it rereads to -/
def ReadsBack (s : Signature) : Prop :=
  ∀ source text rest : List Char, Closed rest → trimStart text = s.written.toList ++ rest →
    Reads (declaration source text) rest s.reread

/-- Inside brackets the same is read, unless it is void. -/
theorem ReadsBack.nested {elem : Signature} (back : ReadsBack elem) (closed : Closed rest)
    (h : trimStart s = elem.written.toList ++ rest) :
    Reads (Reader.nested source s) rest (elem.reread >>= Signature.asPart) := by
  rw [Reader.nested]
  refine Alike.bind (back source s rest closed h) fun c a h => ?_
  obtain ⟨rfl, leaves⟩ := h
  dsimp only [Signature.asPart]
  split
  · exact .fault _
  · exact .value ⟨rfl, leaves⟩

theorem reads_base_list {elem : Signature} (back : ReadsBack elem)
    (h : trimStart s = (Shape.list elem).written.toList ++ rest) :
    ReadsShape (base source s) rest (Shape.list elem).reread := by
  rw [written_list_append] at h
  have closed : Closed ('>' :: rest) := closed_cons (by decide)
  have word : IsWord "List".toList := by decide
  obtain ⟨noParen, afterName, readsName, leaves⟩ := path_of_name source word (endsWord_cons (by decide)) h
  obtain ⟨mark, readsMark, leaves⟩ := char?_of_cons leaves (by decide)
  have inner : trimStart mark.1 = elem.written.toList ++ '>' :: rest := by rw [leaves, (written_begins elem closed).1]
  rw [base]
  simp only [noParen, readsName, ok_bind, readsMark, true_or, if_true]
  refine Alike.bind (back.nested closed inner) fun c a h => ?_
  obtain ⟨rfl, leaves⟩ := h
  obtain ⟨last, readsLast, leaves⟩ := expect_of_cons source leaves (by decide)
  simp only [readsLast, ok_bind]
  exact .value ⟨rfl, leaves⟩

theorem reads_base_dict {key : KeyKind} {value : Signature} (back : ReadsBack value)
    (h : trimStart s = (Shape.dict key value).written.toList ++ rest) :
    ReadsShape (base source s) rest (Shape.dict key value).reread := by
  rw [written_dict_append] at h
  have closed : Closed ('>' :: rest) := closed_cons (by decide)
  have word : IsWord "Dict".toList := by decide
  obtain ⟨keyWord, keyOther⟩ := isWord_keyKind key
  obtain ⟨noParen, afterName, readsName, leaves⟩ := path_of_name source word (endsWord_cons (by decide)) h
  obtain ⟨mark, readsMark, leaves⟩ := char?_of_cons leaves (by decide)
  -- the key is read as a declaration's name would be: first an access, and there is none
  have keyBegins : BeginsShape (afterName.andRead mark).1 :=
    leaves ▸ .word keyWord (endsWord_cons (by decide)) keyOther
  obtain ⟨keyStart, readsOwned, text⟩ := access_of_mark source .owned keyBegins keyBegins.trimStart_eq
  obtain ⟨afterKey, readsKey, leaves⟩ :=
    path_of_trimStart source keyWord (endsWord_cons (by decide)) (text.trans leaves)
  have kind : keyKind key.name = .ok key := by rw [keyKind, KeyKind.ofName?_name]
  obtain ⟨comma, readsComma, leaves⟩ := expect_of_cons source leaves (by decide)
  have valueText : trimStart comma.1 = value.written.toList ++ '>' :: rest := by
    rw [leaves]
    exact (written_begins value closed).1
  rw [base]
  simp only [noParen, readsName, ok_bind, readsMark, readsOwned, readsKey, kind, readsComma]
  rw [if_neg (by decide), if_pos (by decide)]
  refine Alike.bind (back.nested closed valueText) fun c a h => ?_
  obtain ⟨rfl, leaves⟩ := h
  obtain ⟨last, readsLast, leaves⟩ := expect_of_cons source leaves (by decide)
  simp only [readsLast, ok_bind]
  exact .value ⟨rfl, leaves⟩

theorem writtenList_append (elem second : Signature) (more : List Signature) (rest : List Char) :
    (Signature.writtenList (elem :: second :: more)).toList ++ rest =
      elem.written.toList ++ ',' :: ' ' :: ((Signature.writtenList (second :: more)).toList ++ rest) := by
  simp [Signature.writtenList]

theorem writtenList_begins (elem : Signature) (more : List Signature) (closed : Closed rest) :
    trimStart ((Signature.writtenList (elem :: more)).toList ++ rest) =
        (Signature.writtenList (elem :: more)).toList ++ rest ∧
      ((Signature.writtenList (elem :: more)).toList ++ rest).head? ≠ some ')' := by
  cases more with
  | nil => exact written_begins elem closed
  | cons second more =>
    rw [writtenList_append]
    exact written_begins elem (closed_cons (by decide))

theorem trimStart_writtenList (elems : List Signature) (closed : Closed rest) :
    trimStart ((Signature.writtenList elems).toList ++ rest) = (Signature.writtenList elems).toList ++ rest := by
  cases elems with
  | nil => exact closed.trimStart_eq
  | cons elem more => exact (writtenList_begins elem more closed).1

theorem reads_list {elems : List Signature} (back : ∀ elem ∈ elems, ReadsBack elem)
    (h : trimStart s = (Signature.writtenList elems).toList ++ ')' :: rest) :
    Alike (fun c elems => c.1 = elems ∧ c.2.2.1 = rest) (list source s) (Signature.rereadParts elems) := by
  induction elems generalizing s with
  | nil =>
    obtain ⟨left, reads, leaves⟩ := char?_of_trimStart (c := ')') (t := rest) h
    rw [list]
    simp only [reads]
    exact .value ⟨rfl, leaves⟩
  | cons elem more ih =>
    have first := back elem List.mem_cons_self
    -- no declaration begins with a closing parenthesis, so the list does not end here
    have noClose : char? ')' s = none := char?_eq_none (h ▸ (writtenList_begins elem more (closed_cons (by decide))).2)
    rw [list, Signature.rereadParts]
    simp only [noClose]
    cases more with
    | nil =>
      have closed : Closed (')' :: rest) := closed_cons (by decide)
      refine Alike.bind (first.nested closed h) fun c a h => ?_
      obtain ⟨rfl, leaves⟩ := h
      have noComma : char? ',' c.2.1 = none := char?_eq_none (by rw [leaves, closed.trimStart_eq]; simp)
      obtain ⟨last, readsLast, leaves⟩ := expect_of_cons source leaves (by decide)
      simp only [noComma, readsLast, ok_bind]
      exact .value ⟨rfl, leaves⟩
    | cons second more =>
      rw [writtenList_append] at h
      refine Alike.bind (first.nested (closed_cons (by decide)) h) fun c a h => ?_
      obtain ⟨rfl, leaves⟩ := h
      obtain ⟨comma, readsComma, leaves⟩ := char?_of_cons leaves (by decide)
      have closed : Closed (')' :: rest) := closed_cons (by decide)
      obtain ⟨begins, noParen⟩ := writtenList_begins second more closed
      have text : trimStart (c.2.andRead comma).1 = (Signature.writtenList (second :: more)).toList ++ ')' :: rest :=
        leaves ▸ begins
      have noTrailing : char? ')' (c.2.andRead comma).1 = none := char?_eq_none (text ▸ noParen)
      simp only [readsComma, noTrailing]
      refine Alike.bind (ih (fun other mem => back other (List.mem_cons_of_mem _ mem)) text) fun c a h => ?_
      obtain ⟨rfl, leaves⟩ := h
      exact .value ⟨rfl, leaves⟩

theorem reads_base_tuple {elems : List Signature} (back : ∀ elem ∈ elems, ReadsBack elem)
    (h : trimStart s = (Shape.tuple elems).written.toList ++ rest) :
    ReadsShape (base source s) rest (Shape.tuple elems).reread := by
  rw [written_tuple_append] at h
  have word : IsWord "Tuple".toList := by decide
  obtain ⟨noParen, afterName, readsName, leaves⟩ := path_of_name source word (endsWord_cons (by decide)) h
  have noAngle : char? '<' afterName.1 = none := char?_eq_none (by rw [leaves, trimStart_cons rfl]; simp)
  obtain ⟨mark, readsMark, leaves⟩ := char?_of_cons leaves (by decide)
  have inner : trimStart mark.1 = (Signature.writtenList elems).toList ++ ')' :: rest := by
    rw [leaves]
    exact trimStart_writtenList elems (closed_cons (by decide))
  rw [base]
  simp only [noParen, readsName, ok_bind, noAngle, true_or, if_true, readsMark]
  refine Alike.bind (reads_list back inner) fun c a h => ?_
  obtain ⟨rfl, leaves⟩ := h
  exact .value ⟨rfl, leaves⟩

/-- The mark of the access is read first; what is left is the text of the shape. -/
theorem readsBack_of_base {a : Access} {shape : Shape}
    (back : ∀ source s rest, Closed rest → trimStart s = shape.written.toList ++ rest →
      ReadsShape (base source s) rest shape.reread) : ReadsBack ⟨a, shape⟩ := by
  intro source s rest closed h
  rw [written_append] at h
  obtain ⟨afterAccess, readsAccess, text⟩ := access_of_mark source a (beginsShape_written shape closed) h
  rw [declaration]
  simp only [readsAccess, ok_bind]
  refine Alike.bind (back source afterAccess.1 rest closed text) fun c inner h => ?_
  obtain ⟨value, leaves⟩ := h
  refine .value ⟨?_, leaves⟩
  dsimp only
  split
  · next owned => rw [value, owned]; rfl
  · next => rw [value]; rfl

/-- **Every signature is read back**, wherever it stands. -/
theorem readsBack (s : Signature) : ReadsBack s := by
  induction s using Signature.induction with
  | primitive access kind =>
    refine readsBack_of_base fun source s rest closed h => ?_
    exact reads_base_of_name (isWord_primitive kind).1 (named?_primitive kind) closed h
  | tuple access elems parts => exact readsBack_of_base fun source s rest _ h => reads_base_tuple parts h
  | list access elem part => exact readsBack_of_base fun source s rest _ h => reads_base_list part h
  | dict access key value part => exact readsBack_of_base fun source s rest _ h => reads_base_dict part h
  | hole access head =>
    refine readsBack_of_base fun source s rest closed h => ?_
    match head with
    | none =>
      have word : IsWord "usize".toList := by decide
      exact reads_base_of_name word rfl closed h
    | some .tuple => exact reads_base_of_name (isWord_bareName .tuple).1 rfl closed h
    | some .list => exact reads_base_of_name (isWord_bareName .list).1 rfl closed h
    | some .dict => exact reads_base_of_name (isWord_bareName .dict).1 rfl closed h
  | void access => exact readsBack_of_base fun source s rest _ h => reads_base_void h

end Reader

/-- Reading the written form of a signature is rereading the signature. -/
theorem Signature.read_written_eq_reread (s : Signature) : Signature.read s.written = s.reread := by
  have text : trimStart s.written.toList = s.written.toList ++ [] := by
    simpa using (Reader.written_begins s Reader.closed_nil).1
  have reads := Reader.readsBack s s.written.toList s.written.toList [] Reader.closed_nil text
  rw [Signature.read]
  refine Reader.Alike.bind_eq reads fun c a h => ?_
  obtain ⟨rfl, leaves⟩ := h
  dsimp only
  rw [leaves]
  rfl

end NativeBridge
