import LispReader.Form.Render
import LispReader.Proofs.Conversion
import LispReader.Proofs.Lexemes
import LispReader.Proofs.Utf8Repair

/-!
# What written forms say

Written as source text, forms can lose only two things. An infinite float is written as a word, and
a string that is not text is written as repaired text. The echo of a form is what its text says: the
form itself, spans aside, exactly if none of its floats is infinite and all its strings are text.
-/

namespace LispReader

namespace Form

mutual

/-- A form without the place it was read from. -/
def withoutSpan : Form → Form
  | .list _ items => .list .origin (withoutSpans items)
  | .quote _ quoted => .quote .origin quoted.withoutSpan
  | .symbol _ handle => .symbol .origin handle
  | .integer _ value => .integer .origin value
  | .float _ value => .float .origin value
  | .string _ contents => .string .origin contents
  | .error _ => .error .origin

/-- Forms without the places they were read from. -/
def withoutSpans : List Form → List Form
  | [] => []
  | form :: rest => form.withoutSpan :: withoutSpans rest

end

end Form

namespace Tree

/-- A tree without the places its forms were read from. -/
def withoutSpans (tree : Tree) : Tree := ⟨Form.withoutSpans tree.forms⟩

end Tree

namespace Form

mutual

/-- Whether every part of a form lies inside at most `limit` lists and quotes, `depth` of which are
around the form itself. -/
def Within (limit depth : Nat) : Form → Prop
  | .list _ items => depth ≤ limit ∧ WithinAll limit (depth + 1) items
  | .quote _ quoted => depth ≤ limit ∧ quoted.Within limit (depth + 1)
  | .symbol _ _ | .integer _ _ | .float _ _ | .string _ _ | .error _ => depth ≤ limit

/-- Whether every part of every form lies inside at most `limit` lists and quotes. -/
def WithinAll (limit depth : Nat) : List Form → Prop
  | [] => True
  | form :: rest => form.Within limit depth ∧ WithinAll limit depth rest

end

/-! ## Parts of forms -/

/-- Whether a form by itself is written as a token of its own kind: it is not unreadable, and if it
is a symbol, the table knows it by a proper name. -/
def Legible (table : SymbolTable) : Form → Prop
  | .symbol _ handle =>
    ∃ name, table.resolve? handle = some name ∧ Byte.isName (Text.bytes name) = true
  | .error _ => False
  | .list _ _ | .quote _ _ | .integer _ _ | .float _ _ | .string _ _ => True

/-- Whether nothing is lost when a form by itself is written: it is no infinite float, and if it is
a string, its contents are text. -/
def Exact : Form → Prop
  | .float _ value => value.isFinite = true
  | .string _ contents => ∃ text, Text.ofBytes? contents = some text
  | .list _ _ | .quote _ _ | .symbol _ _ | .integer _ _ | .error _ => True

mutual

/-- Whether something holds of a form and of everything inside it. -/
def Every (holds : Form → Prop) : Form → Prop
  | .list span items => holds (.list span items) ∧ EveryOf holds items
  | .quote span quoted => holds (.quote span quoted) ∧ quoted.Every holds
  | .symbol span handle => holds (.symbol span handle)
  | .integer span value => holds (.integer span value)
  | .float span value => holds (.float span value)
  | .string span contents => holds (.string span contents)
  | .error span => holds (.error span)

/-- Whether something holds of forms and of everything inside them. -/
def EveryOf (holds : Form → Prop) : List Form → Prop
  | [] => True
  | form :: rest => form.Every holds ∧ EveryOf holds rest

end

variable {holds : Form → Prop}

/-- What holds of the parts of two rows holds of the parts of both together. -/
theorem everyOf_append {first second : List Form} :
    EveryOf holds (first ++ second) ↔ EveryOf holds first ∧ EveryOf holds second := by
  induction first with
  | nil => simp [EveryOf]
  | cons form rest ih => simp only [List.cons_append, EveryOf, ih, and_assoc]

/-- What holds of a form and of the parts of its children holds of all its parts. -/
theorem every_iff_children (form : Form) :
    form.Every holds ↔ holds form ∧ EveryOf holds form.children := by
  cases form <;> simp [Every, EveryOf, children]

/-- A walk meets every part. -/
theorem forall_mem_walk (worklist : List Form) :
    (∀ form ∈ walk worklist, holds form) ↔ EveryOf holds worklist := by
  fun_induction walk worklist with
  | case1 => simp [EveryOf]
  | case2 form rest ih =>
    rw [List.forall_mem_cons, ih, everyOf_append, EveryOf, every_iff_children, and_assoc]

/-! ## Echoes -/

/-- The word that is written for an infinite float. -/
def infinityWord (negative : Bool) : String := if negative then "-inf" else "inf"

mutual

/-- What the text of a form is read as, spans left out, if the table knows the names of the form. -/
def echo (symbols : SymbolTable) : Form → Converted Form
  | .list _ items =>
    let inner := echoes symbols items
    ⟨.list .origin inner.value, inner.symbols, inner.findings⟩
  | .quote _ quoted =>
    let inner := quoted.echo symbols
    ⟨.quote .origin inner.value, inner.symbols, inner.findings⟩
  | .symbol _ handle => ⟨.symbol .origin handle, symbols, []⟩
  | .integer _ value => ⟨.integer .origin value, symbols, []⟩
  | .float _ value =>
    if value.isFinite then ⟨.float .origin value, symbols, []⟩
    else
      let (word, symbols) := symbols.intern (infinityWord value.negative)
      ⟨.symbol .origin word, symbols, []⟩
  | .string _ contents => ⟨.string .origin (Utf8.repair contents), symbols, []⟩
  | .error _ => ⟨.error .origin, symbols, []⟩

/-- What the text of forms is read as, one after the other. -/
def echoes (symbols : SymbolTable) : List Form → Converted (List Form)
  | [] => ⟨[], symbols, []⟩
  | form :: rest =>
    let first := form.echo symbols
    let others := echoes first.symbols rest
    ⟨first.value :: others.value, others.symbols, first.findings ++ others.findings⟩

end

mutual

/-- The text of a form is read without a finding. -/
theorem findings_echo (symbols : SymbolTable) (form : Form) : (form.echo symbols).findings = [] := by
  match form with
  | .list _ items => exact findings_echoes symbols items
  | .quote _ quoted => exact findings_echo symbols quoted
  | .float _ value =>
    simp only [echo]
    split <;> rfl
  | .symbol _ _ | .integer _ _ | .string _ _ | .error _ => rfl

/-- The text of forms is read without a finding. -/
theorem findings_echoes (symbols : SymbolTable) (forms : List Form) :
    (echoes symbols forms).findings = [] := by
  match forms with
  | [] => rfl
  | form :: rest =>
    simp only [echoes, findings_echo symbols form, findings_echoes _ rest, List.append_nil]

end

mutual

/-- The echo of a form is the form itself exactly if nothing is lost in any part of it. -/
theorem echo_eq_iff (symbols : SymbolTable) (form : Form) :
    (form.echo symbols).value = form.withoutSpan ↔ form.Every Exact := by
  match form with
  | .list _ items =>
    simp only [echo, withoutSpan, list.injEq, true_and, Every, Exact]
    exact echoes_eq_iff symbols items
  | .quote _ quoted =>
    simp only [echo, withoutSpan, quote.injEq, true_and, Every, Exact]
    exact echo_eq_iff symbols quoted
  | .symbol _ _ | .integer _ _ | .error _ => simp [echo, withoutSpan, Every, Exact]
  | .float _ value =>
    cases finite : value.isFinite <;> simp [echo, withoutSpan, Every, Exact, finite]
  | .string _ contents =>
    simp only [echo, withoutSpan, string.injEq, true_and, Every, Exact]
    exact Text.repair_eq_self_iff

/-- The echo of forms is the forms themselves exactly if nothing is lost in any part of them. -/
theorem echoes_eq_iff (symbols : SymbolTable) (forms : List Form) :
    (echoes symbols forms).value = withoutSpans forms ↔ EveryOf Exact forms := by
  match forms with
  | [] => simp [echoes, withoutSpans, EveryOf]
  | form :: rest =>
    simp only [echoes, withoutSpans, List.cons.injEq, EveryOf, echo_eq_iff symbols form,
      echoes_eq_iff _ rest]

end

mutual

/-- The text of a form in which nothing is lost adds no name. -/
theorem symbols_echo {form : Form} (symbols : SymbolTable) (exact : form.Every Exact) :
    (form.echo symbols).symbols = symbols := by
  match form with
  | .list _ items => exact symbols_echoes symbols exact.2
  | .quote _ quoted =>
    change (quoted.echo symbols).symbols = symbols
    exact symbols_echo symbols exact.2
  | .float _ value =>
    have finite : value.isFinite = true := exact
    simp only [echo, finite, if_true]
  | .symbol _ _ | .integer _ _ | .string _ _ | .error _ => rfl

/-- The text of forms in which nothing is lost adds no name. -/
theorem symbols_echoes {forms : List Form} (symbols : SymbolTable) (exact : EveryOf Exact forms) :
    (echoes symbols forms).symbols = symbols := by
  match forms with
  | [] => rfl
  | form :: rest =>
    simp only [echoes, symbols_echo symbols exact.1, symbols_echoes symbols exact.2]

end

end Form

end LispReader
