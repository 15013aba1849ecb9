import LispReader.Binary64
import LispReader.Span
import LispReader.SymbolTable

/-!
# Forms

Reading turns a source into forms. Every form carries the span it was read from; lists and quotes
hold other forms, and everything else is a leaf. A walk visits forms from a worklist: it takes the
first form, puts its children in front of what is left, and so meets parents before children.
-/

namespace LispReader

/-- A piece of code or data. -/
inductive Form where
  /-- Forms between parentheses. -/
  | list (span : Span) (items : List Form)
  /-- A form after an apostrophe. -/
  | quote (span : Span) (quoted : Form)
  /-- An interned name. -/
  | symbol (span : Span) (symbol : Symbol)
  /-- An integer of 64 bits. -/
  | integer (span : Span) (value : Int64)
  /-- A float. -/
  | float (span : Span) (value : Binary64)
  /-- The contents of a string literal. -/
  | string (span : Span) (contents : List UInt8)
  /-- What stands in for a part of the source that could not be read as anything. -/
  | error (span : Span)
  deriving Inhabited

namespace Form

/-- The bytes that the form was read from. -/
def span : Form → Span
  | .list span _ => span
  | .quote span _ => span
  | .symbol span _ => span
  | .integer span _ => span
  | .float span _ => span
  | .string span _ => span
  | .error span => span

/-- The forms directly inside, in order. -/
def children : Form → List Form
  | .list _ items => items
  | .quote _ quoted => [quoted]
  | .symbol _ _ | .integer _ _ | .float _ _ | .string _ _ | .error _ => []

/-- Whether the form stands in for something unreadable. -/
def isError : Form → Bool
  | .error _ => true
  | .list _ _ | .quote _ _ | .symbol _ _ | .integer _ _ | .float _ _ | .string _ _ => false

/-- The word for the kind of form. -/
def kindName : Form → String
  | .list _ _ => "list"
  | .quote _ _ => "quote"
  | .symbol _ _ => "symbol"
  | .integer _ _ => "integer"
  | .float _ _ => "float"
  | .string _ _ => "string"
  | .error _ => "error"

mutual

/-- The number of forms in a form, itself included. -/
def size : Form → Nat
  | .list _ items => sizeAll items + 1
  | .quote _ quoted => quoted.size + 1
  | .symbol _ _ | .integer _ _ | .float _ _ | .string _ _ | .error _ => 1

/-- The number of forms in a list of forms. -/
def sizeAll : List Form → Nat
  | [] => 0
  | form :: rest => form.size + sizeAll rest

end

/-- Forms in two lists are counted separately. -/
theorem sizeAll_append (first second : List Form) :
    sizeAll (first ++ second) = sizeAll first + sizeAll second := by
  induction first with
  | nil => simp [sizeAll]
  | cons form rest ih => simp only [List.cons_append, sizeAll, ih]; omega

/-- A form has one form more than its children together. -/
theorem size_eq_children (form : Form) : form.size = sizeAll form.children + 1 := by
  cases form <;> simp [size, sizeAll, children]

/-- The forms met by visiting a worklist, each followed by what is inside it. -/
def walk : List Form → List Form
  | [] => []
  | form :: rest => form :: walk (form.children ++ rest)
  termination_by worklist => sizeAll worklist
  decreasing_by
    rw [sizeAll_append, sizeAll, size_eq_children]
    omega

end Form

/-- The top-level forms of a source, in order. -/
structure Tree where
  forms : List Form
  deriving Inhabited

namespace Tree

/-- Every form of the tree, parents before children and siblings in order. -/
def walk (tree : Tree) : List Form := Form.walk tree.forms

end Tree

end LispReader
