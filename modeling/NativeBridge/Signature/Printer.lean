/-
The written form of a signature, as declarations use it: the access first, then the shape.
-/
import NativeBridge.Signature

namespace NativeBridge

/-- how an access is written in front of a shape -/
def Access.mark : Access → String
  | .owned => ""
  | .borrowed => "&"
  | .borrowedMut => "&mut "
  | .rawConst => "*const "
  | .rawMut => "*mut "

/-- how a primitive type is written -/
def Primitive.name : Primitive → String
  | .int w => w.name
  | .float32 => "f32"
  | .float64 => "f64"
  | .bool => "bool"
  | .text => "String"

/-- how a container of unknown contents is written -/
def Container.bareName : Container → String
  | .tuple => "WireTuple"
  | .list => "WireList"
  | .dict => "WireDict"

mutual

/-- the written form of a shape -/
def Shape.written : Shape → String
  | .primitive kind => kind.name
  | .tuple elems => "Tuple(" ++ Signature.writtenList elems ++ ")"
  | .list elem => "List<" ++ elem.written ++ ">"
  | .dict key value => "Dict<" ++ key.name ++ ", " ++ value.written ++ ">"
  | .hole none => "usize"
  | .hole (some head) => head.bareName
  | .void => "()"

/-- the written form of a signature -/
def Signature.written : Signature → String
  | ⟨access, shape⟩ => access.mark ++ shape.written

/-- the written forms of several signatures, with commas between them -/
def Signature.writtenList : List Signature → String
  | [] => ""
  | [elem] => elem.written
  | elem :: rest => elem.written ++ ", " ++ Signature.writtenList rest

end

instance : ToString Signature := ⟨Signature.written⟩

end NativeBridge
