/-!
# Interned names

A symbol is the number of a name in a table. Names are numbered in the order in which they are
first interned, interning a known name gives its number again, and the table only ever grows.
-/

namespace LispReader

/-- The number of an interned name. -/
structure Symbol where
  number : Nat
  deriving DecidableEq, Inhabited

namespace Symbol

/-- The symbol of a number. A symbol fits in 32 bits, so of a longer number the low 32 bits count. -/
def ofNumber (number : Nat) : Symbol := ⟨number % UInt32.size⟩

/-- A number of 32 bits is that of its symbol. -/
theorem number_ofNumber {number : Nat} (fits : number < UInt32.size) :
    (ofNumber number).number = number :=
  Nat.mod_eq_of_lt fits

/-- A symbol is found again by its number. -/
theorem ofNumber_number {symbol : Symbol} (fits : symbol.number < UInt32.size) :
    ofNumber symbol.number = symbol := by
  cases symbol
  simp only [ofNumber, Nat.mod_eq_of_lt fits]

end Symbol

/-- The interned names, in the order of their numbers, each once. -/
structure SymbolTable where
  names : List String
  nodup : names.Nodup

namespace SymbolTable

/-- The table that knows no name. -/
def empty : SymbolTable := ⟨[], List.nodup_nil⟩

instance : Inhabited SymbolTable := ⟨empty⟩

/-- The number of names. -/
def size (table : SymbolTable) : Nat := table.names.length

/-- The symbol of a name, and the table that knows it. -/
def intern (table : SymbolTable) (name : String) : Symbol × SymbolTable :=
  if known : name ∈ table.names then (⟨table.names.idxOf name⟩, table)
  else (⟨table.size⟩, {
    names := table.names ++ [name]
    nodup := by
      refine List.nodup_append.mpr ⟨table.nodup, by simp, ?_⟩
      intro earlier isEarlier last isLast
      rw [List.mem_singleton.mp isLast]
      exact fun same => known (same ▸ isEarlier) })

/-- The name of a symbol, if the table knows it. -/
def resolve? (table : SymbolTable) (symbol : Symbol) : Option String :=
  table.names[symbol.number]?

/-- The symbol of a name resolves to it. -/
theorem resolve?_intern (table : SymbolTable) (name : String) :
    (table.intern name).2.resolve? (table.intern name).1 = some name := by
  unfold intern
  split
  · rename_i known
    have bound := List.idxOf_lt_length_of_mem known
    simp only [resolve?, List.getElem?_eq_getElem bound, List.getElem_idxOf]
  · simp [resolve?, size]

/-- A known name is interned as the symbol that resolves to it. -/
theorem intern_of_resolve? {table : SymbolTable} {symbol : Symbol} {name : String}
    (resolved : table.resolve? symbol = some name) : table.intern name = (symbol, table) := by
  obtain ⟨bound, found⟩ := List.getElem?_eq_some_iff.mp resolved
  have known : name ∈ table.names := found ▸ List.getElem_mem bound
  have number : table.names.idxOf name = symbol.number := by
    rw [← found]
    exact table.nodup.idxOf_getElem _ bound
  rw [intern, dif_pos known, number]

/-- Known names keep their symbols. -/
theorem resolve?_intern_of_resolve? {table : SymbolTable} {symbol : Symbol} {known : String}
    (resolved : table.resolve? symbol = some known) (name : String) :
    (table.intern name).2.resolve? symbol = some known := by
  unfold intern
  split
  · exact resolved
  · simp only [resolve?] at resolved ⊢
    obtain ⟨bound, found⟩ := List.getElem?_eq_some_iff.mp resolved
    rw [List.getElem?_append_left bound]
    exact resolved

end SymbolTable

end LispReader
