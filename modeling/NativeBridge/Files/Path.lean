/-
Paths as texts. A path is cut into pieces at its slashes. The first piece says where the path starts: it is empty before a
leading slash, that is for the root. A later piece that is empty or a single point leads nowhere; every other piece is a step
down, or up for two points. A path is joined and shortened as a text, without a look at any file.

- `Path.join_of_isAbsolute`: an absolute path takes the place of the path that it is joined to.
-/
namespace NativeBridge

/-- a path as it is written -/
structure Path where
  text : String
deriving DecidableEq, Repr

namespace Path

/-- what lies between the slashes -/
def split : List Char → List (List Char)
  | [] => [[]]
  | c :: rest =>
    match split rest with
    | [] => [[c]]
    | first :: others => if c = '/' then [] :: first :: others else (c :: first) :: others

/-- pieces as a text -/
def joined (pieces : List (List Char)) : List Char := ['/'].intercalate pieces

/-- the pieces of a path -/
def pieces (p : Path) : List (List Char) := split p.text.toList

/-- a piece behind the first one that leads nowhere -/
def isIdle (piece : List Char) : Bool := piece == [] || piece == ['.']

/-- the path starts at the root -/
def isAbsolute (p : Path) : Bool := p.text.toList.head? == some '/'

/-- the path goes on with another one; the other one replaces it if it starts at the root -/
def join (p q : Path) : Path :=
  if q.isAbsolute then q
  else if p.text.toList = [] ∨ p.text.toList.getLast? = some '/' then ⟨p.text ++ q.text⟩
  else ⟨p.text ++ "/" ++ q.text⟩

/-- the path goes on with a name -/
def child (p : Path) (name : String) : Path := p.join ⟨name⟩

/-- the first piece of a path together with later ones, as a text; alone, the piece of the root is a slash -/
def ofPieces (first : List Char) (body : List (List Char)) : Path :=
  if first = [] ∧ body = [] then ⟨"/"⟩ else ⟨String.ofList (joined (first :: body))⟩

/-- the paths above one with this first piece and these later pieces, last piece first; the nearest comes first -/
def above (first : List Char) : List (List Char) → List Path
  | [] => if first = [] then [] else [⟨""⟩]
  | piece :: rest =>
    if isIdle piece then above first rest
    else ofPieces first (rest.dropWhile isIdle).reverse :: above first rest

/-- the paths above a path, the nearest first: each is the one before it without its last step -/
def parents (p : Path) : List Path :=
  match p.pieces with
  | [] => []
  | first :: body => above first body.reverse

/-- the path without its last step -/
def parent? (p : Path) : Option Path := p.parents.head?

/-- how many steps a path has, with the root, or a point at the beginning, as one of them -/
def stepCount (p : Path) : Nat :=
  match p.pieces with
  | [] => 0
  | _ :: body => (body.filter fun piece => !isIdle piece).length + if p.text = "" then 0 else 1

/-- the name at the end of a path, if it ends with one -/
def fileName? (p : Path) : Option (List Char) :=
  match p.pieces with
  | [] => none
  | first :: body =>
    let last := ((body.reverse.dropWhile isIdle).head?).getD first
    if isIdle last || last == ['.', '.'] then none else some last

/-- the name at the end of a path has an extension: a point that is not its first character -/
def hasExtension (p : Path) : Bool :=
  match p.fileName? with
  | none => false
  | some name => name.tail.contains '.'

theorem join_of_isAbsolute {p q : Path} (h : q.isAbsolute = true) : p.join q = q := by simp [join, h]

theorem joined_split (s : List Char) : joined (split s) = s := by
  induction s with
  | nil => rfl
  | cons c rest ih =>
    simp only [split]
    split
    · next h => rw [h] at ih; simp [joined, List.intercalate] at ih ⊢; exact ih
    · next first others h =>
      rw [h] at ih
      by_cases hc : c = '/'
      · simp [hc, joined, List.intercalate] at ih ⊢
        exact ih
      · cases others <;> simp_all [joined, List.intercalate]

end Path

end NativeBridge
