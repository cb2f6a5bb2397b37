import LittleComputer.Expression.Memory
import LittleComputer.Text.Quoted

/-!
# Written forms

The written form of a value is the one that names it in an expression, as far as there is one. A
list or a dictionary inside itself is written with dots in place of its items.
-/

namespace LittleComputer.Expression.Value

def builtinName (f : Builtin) : String :=
  match Builtin.table.find? (·.2 == f) with
  | some (s, _) => s
  | Option.none => ""

/-- Texts with commas between them. -/
def commaSeparated (parts : List Text) : Text := (parts.intersperse (", " : Text)).flatten

/-- The name of a view, as the method that makes it. -/
def viewCall : View → Text
  | .elems => ".elems()"
  | .elemOrds => ".elem_ords()"
  | .codepoints => ".codepoints()"
  | .codepointOrds => ".codepoint_ords()"
  | .byteElems => ".elems()"

mutual

/-- The written form of a value, given that of what stands in cells. -/
def writtenBy (inCell : Value → Text) : Value → Text
  | .none => "None"
  | .bool b => if b then "True" else "False"
  | .int v => (decimal v).map .char
  | .float v => (Binary64.text v).map .char
  | .string s => (Text.ofBytes s.toList).quoted
  | .bytes s => .char 'b' :: (Text.ofBytes s.toList).quoted
  | .tuple [] => "()"
  | .tuple [v] => ("(" : Text) ++ v.writtenBy inCell ++ (",)" : Text)
  | .tuple members => ("(" : Text) ++ commaSeparated (allWrittenBy inCell members) ++ (")" : Text)
  | .list cell => inCell (.list cell)
  | .dict cell => inCell (.dict cell)
  | .range a b s =>
    let parts := if s != 1 then [a, b, s] else if a != 0 then [a, b] else [b]
    ("range(" : Text) ++ commaSeparated (parts.map fun v => (decimal v).map .char) ++ (")" : Text)
  | .view .byteElems s => .char 'b' :: (Text.ofBytes s.toList).quoted ++ viewCall .byteElems
  | .view v s => (Text.ofBytes s.toList).quoted ++ viewCall v
  | .function _ _ name _ _ _ _ => ("<function " : Text) ++ (name : Text) ++ (">" : Text)
  | .builtin f => ("<built-in function " : Text) ++ (builtinName f : Text) ++ (">" : Text)
  | .method _ self name _ =>
    ("<built-in method " : Text) ++ (name : Text) ++ (" of " : Text) ++
      (self.typeName : Text) ++ (" value>" : Text)

def allWrittenBy (inCell : Value → Text) : List Value → List Text
  | [] => []
  | v :: rest => v.writtenBy inCell :: allWrittenBy inCell rest

end

/-- The written form of a value inside the cells of `path`. Every level adds a cell to the path, so
the number of cells bounds the depth. -/
def writtenWithin (store : Store) : (depth : Nat) → (path : List Nat) → Value → Text
  | 0, _, _ => []
  | depth + 1, path, v =>
    v.writtenBy fun
      | .list cell =>
        let inside := if path.contains cell then ("..." : Text) else
          commaSeparated (((store.list? cell).getD #[]).toList.map
            (writtenWithin store depth (cell :: path)))
        ("[" : Text) ++ inside ++ ("]" : Text)
      | .dict cell =>
        let inside := if path.contains cell then ("..." : Text) else
          commaSeparated (((store.dict? cell).getD .empty).toList.map fun (k, v) =>
            writtenWithin store depth path k ++ (": " : Text) ++
              writtenWithin store depth (cell :: path) v)
        ("\x7b" : Text) ++ inside ++ ("\x7d" : Text)
      | _ => []

/-- The written form of a value. -/
def written (store : Store) (v : Value) : Text := v.writtenWithin store (store.cells.size + 1) []

/-- The text of a value: a string is its own text. -/
def text (store : Store) : Value → Bytes
  | .string s => s
  | .bytes s => Bytes.ofList (utf8 (charsOf s))
  | v => Bytes.ofList (Text.toBytes (v.written store))

end LittleComputer.Expression.Value
