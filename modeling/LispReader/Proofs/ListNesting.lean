import LispReader.Proofs.Reread
import LispReader.Proofs.SpanNesting

/-!
# How deep lists nest

The limit of a read is compared with the number of lists and quotes around a form when the form
starts, before it is known what the form holds. So a form may lie inside as many others as the limit
says, and there may be one more list than that, which lies inside all the others and is empty. An
item in it would be inside one list too many. Both bounds are reached whatever the limit is.
-/

namespace LispReader

namespace Form

/-- Whether a form is a list. -/
def isList : Form → Bool
  | .list _ _ => true
  | .quote _ _ | .symbol _ _ | .integer _ _ | .float _ _ | .string _ _ | .error _ => false

/-- Whether each form of a row is around the next one. -/
def Chained : List Form → Prop
  | [] | [_] => True
  | outer :: inner :: rest => outer.Encloses inner ∧ Chained (inner :: rest)

/-! ## Going down -/

/-- Forms are nested no deeper than `limit` if each of them is. -/
theorem withinAll_iff {limit depth : Nat} {forms : List Form} :
    WithinAll limit depth forms ↔ ∀ form ∈ forms, form.Within limit depth := by
  induction forms with
  | nil => simp [WithinAll]
  | cons form rest ih => rw [WithinAll, ih, List.forall_mem_cons]

/-- A form lies itself inside at most `limit` lists and quotes. -/
theorem Within.depth_le {limit depth : Nat} {form : Form} (within : form.Within limit depth) :
    depth ≤ limit := by
  cases form with
  | list span items => exact within.1
  | quote span quoted => exact within.1
  | symbol | integer | float | string | error => exact within

/-- The forms directly inside a form lie one deeper. -/
theorem Within.children {limit depth : Nat} {form child : Form} (within : form.Within limit depth)
    (direct : child ∈ form.children) : child.Within limit (depth + 1) := by
  cases form with
  | list span items => exact withinAll_iff.mp within.2 child direct
  | quote span quoted =>
    rw [List.mem_singleton.mp direct]
    exact within.2
  | symbol | integer | float | string | error => cases direct

/-- What a form is around lies deeper. -/
theorem Within.of_encloses {limit depth : Nat} {outer inner : Form}
    (within : outer.Within limit depth) (encloses : outer.Encloses inner) :
    ∃ deeper, depth < deeper ∧ inner.Within limit deeper := by
  induction encloses generalizing depth with
  | child direct => exact ⟨depth + 1, Nat.lt_succ_self _, within.children direct⟩
  | deeper direct further ih =>
    obtain ⟨deeper, less, inside⟩ := ih (within.children direct)
    exact ⟨deeper, Nat.lt_of_succ_lt less, inside⟩

/-- The last form of a row, each of which is around the next, lies deeper than the first by as many
forms as come after the first. -/
theorem Within.of_chained {limit depth : Nat} {outer : Form} {rest : List Form}
    (within : outer.Within limit depth) (chained : Chained (outer :: rest)) :
    ∃ inner deeper, (outer :: rest).getLast? = some inner ∧ depth + rest.length ≤ deeper ∧
      inner.Within limit deeper := by
  induction rest generalizing outer depth with
  | nil => exact ⟨outer, depth, rfl, Nat.le_refl _, within⟩
  | cons next rest ih =>
    obtain ⟨middle, less, within⟩ := within.of_encloses chained.1
    obtain ⟨inner, deeper, last, count, inside⟩ := ih within chained.2
    refine ⟨inner, deeper, (List.getLast?_cons_cons).trans last, ?_, inside⟩
    rw [List.length_cons]
    omega

end Form

/-! ## Lists around nothing -/

/-- The text of an empty list inside `count` other lists. -/
def nestedLists : (count : Nat) → List UInt8
  | 0 => [Byte.leftParen, Byte.rightParen]
  | count + 1 => Byte.leftParen :: (nestedLists count ++ [Byte.rightParen])

/-- There are two parentheses for each list. -/
theorem length_nestedLists (count : Nat) : (nestedLists count).length = 2 * (count + 1) := by
  induction count with
  | zero => rfl
  | succ count ih =>
    rw [nestedLists, List.length_cons, List.length_append, ih, List.length_singleton]
    omega

namespace Phrase

/-- An empty list inside `count` other lists, from a position on. -/
def nestedLists (position : Nat) : (count : Nat) → Phrase
  | 0 => .list ⟨position, position + 1⟩ [] ⟨position + 1, position + 2⟩
  | count + 1 =>
    .list ⟨position, position + 1⟩ [nestedLists (position + 1) count]
      ⟨position + 2 * count + 3, position + 2 * count + 4⟩

/-- The innermost of the lists lies inside all the others. -/
theorem within_nestedLists {limit depth : Nat} (position count : Nat)
    (shallow : depth + count ≤ limit) : (nestedLists position count).Within limit depth := by
  induction count generalizing position depth with
  | zero => exact ⟨shallow, trivial⟩
  | succ count ih =>
    exact ⟨Nat.le_trans (Nat.le_add_right _ _) shallow, ih (position + 1) (by omega), trivial⟩

/-- What nested lists are read as is a chain of lists. -/
theorem exists_chained (source : List UInt8) (symbols : SymbolTable) (position count : Nat) :
    ∃ rest, Form.Chained (((nestedLists position count).convert source symbols).value :: rest) ∧
      (∀ form ∈ ((nestedLists position count).convert source symbols).value :: rest,
        form.isList = true) ∧
      (∀ form ∈ rest,
        ((nestedLists position count).convert source symbols).value.Encloses form) ∧
      rest.length = count := by
  induction count generalizing position symbols with
  | zero => exact ⟨[], trivial, by simp [nestedLists, convert, Form.isList], by simp, rfl⟩
  | succ count ih =>
    obtain ⟨rest, chained, lists, inside, length⟩ := ih symbols (position + 1)
    have direct : ((nestedLists (position + 1) count).convert source symbols).value ∈
        ((nestedLists position (count + 1)).convert source symbols).value.children :=
      List.mem_singleton_self _
    refine ⟨((nestedLists (position + 1) count).convert source symbols).value :: rest,
      ⟨.child direct, chained⟩, List.forall_mem_cons.mpr ⟨rfl, lists⟩,
      List.forall_mem_cons.mpr ⟨.child direct, fun form member => ?_⟩,
      (List.length_cons).trans (congrArg (· + 1) length)⟩
    exact .deeper direct (inside form member)

end Phrase

namespace Scanner

/-- The text of nested lists is cut into the tokens of nested lists. -/
theorem cut_nestedLists (position count : Nat) (rest : List UInt8) :
    (cut position (nestedLists count ++ rest)).map ReportedToken.token =
      (Phrase.nestedLists position count).tokens ++
        (cut (position + 2 * (count + 1)) rest).map ReportedToken.token := by
  induction count generalizing position rest with
  | zero =>
    simp only [nestedLists, List.cons_append, List.nil_append, cut_leftParen, cut_rightParen]
    rfl
  | succ count ih =>
    have closing : position + 1 + 2 * (count + 1) = position + 2 * count + 3 := by omega
    have behind : position + 2 * count + 3 + 1 = position + 2 * (count + 1 + 1) := by omega
    rw [nestedLists, List.cons_append, List.append_assoc, cut_leftParen, List.map_cons, ih,
      List.singleton_append, cut_rightParen, closing, behind]
    simp [Phrase.nestedLists, Phrase.tokens, Phrase.tokensAll]
    omega

end Scanner

/-- An empty list inside `count` others is derived if the limit is no less than that. -/
theorem Phrase.derives_nestedLists {limit count : Nat} (shallow : count ≤ limit) :
    Derives limit (LispReader.nestedLists count) [nestedLists 0 count] := by
  refine ⟨by simp, ?_, within_nestedLists 0 count (by omega), trivial⟩
  have cut := Scanner.cut_nestedLists 0 count []
  rw [List.append_nil, Scanner.cut_nil, Nat.zero_add, ← length_nestedLists] at cut
  rw [Scanner.tokens_eq_cut, cut, tokensAll, tokensAll, List.append_nil]
  rfl

namespace Session

/-- Of forms each of which is around the next, a read that goes through gives at most one more than
its limit says. If these are lists, one more than the limit, then the innermost is empty. There is
such a chain of lists in what an empty list inside as many others as the limit says is read as. -/
theorem read_bounds_nesting (session : Session) :
    let limit := session.settings.depthLimit
    (∀ arena source tree, (session.read arena source).result = .ok tree →
      ∀ chain : List Form, (∀ form ∈ chain, form ∈ tree.walk) → Form.Chained chain →
        chain.length ≤ limit + 1 ∧
          (chain.length = limit + 1 → (∀ form ∈ chain, form.isList = true) →
            ∃ span, chain.getLast? = some (.list span []))) ∧
      ∀ arena : Arena, 128 * (limit + 2) ≤ arena.remaining.toNat →
        ∃ tree chain, (session.read arena (nestedLists limit)).result = .ok tree ∧
          (∀ form ∈ chain, form ∈ tree.walk) ∧ Form.Chained chain ∧
          (∀ form ∈ chain, form.isList = true) ∧ chain.length = limit + 1 := by
  intro limit
  constructor
  · intro arena source tree succeeds chain met chained
    obtain ⟨phrases, derives, rfl, -⟩ := gives_of_read succeeds
    cases chain with
    | nil => exact ⟨Nat.zero_le _, fun empty => by cases empty⟩
    | cons outer rest =>
      obtain ⟨top, listed, around⟩ := Form.mem_walk.mp (met outer List.mem_cons_self)
      have shallow : top.Within limit 0 :=
        Form.withinAll_iff.mp (Phrase.withinAll_convertAll phrases derives.within) top listed
      obtain ⟨depth, within⟩ : ∃ depth, outer.Within limit depth := by
        rcases around with rfl | encloses
        · exact ⟨0, shallow⟩
        · obtain ⟨deeper, -, inside⟩ := shallow.of_encloses encloses
          exact ⟨deeper, inside⟩
      obtain ⟨inner, deeper, last, count, inside⟩ := within.of_chained chained
      have bound := inside.depth_le
      rw [List.length_cons]
      refine ⟨by omega, fun full lists => ?_⟩
      have list := lists inner (List.mem_of_getLast? last)
      cases inner with
      | list span items =>
        cases items with
        | nil => exact ⟨span, last⟩
        | cons item items =>
          -- An item of the innermost list would lie inside one form too many.
          have deepest := (inside.children (List.mem_cons_self : item ∈ item :: items)).depth_le
          omega
      | quote | symbol | integer | float | string | error => cases list
  · intro arena room
    have bound : limit ≤ 1024 := Nat.min_le_right _ _
    have length := length_nestedLists limit
    have derives := Phrase.derives_nestedLists (Nat.le_refl limit)
    have short : (nestedLists limit).length < Scanner.sourceLimit := by
      rw [length, Scanner.sourceLimit, UInt32.size]
      omega
    have gives : (session.read arena (nestedLists limit)).Gives session (nestedLists limit) _ :=
      gives_of_derives short derives (.inl (by rw [length]; omega))
    obtain ⟨rest, chained, lists, inside, count⟩ :=
      Phrase.exists_chained (nestedLists limit) session.symbols 0 limit
    refine ⟨_, _, gives.result, fun form member => ?_, chained, lists, ?_⟩
    · refine Form.mem_walk.mpr ⟨_, List.mem_singleton_self _, ?_⟩
      rcases List.mem_cons.mp member with first | later
      · exact .inl first
      · exact .inr (inside form later)
    · rw [List.length_cons, count]

/-- A session whose reads follow one level of nesting. -/
def shallow : Session := .create { Settings.default with maxDepth := 1 }

/-- An empty list inside another is read all the same. -/
theorem result_read_shallow (arena : Arena) (room : 384 ≤ arena.remaining.toNat) :
    (shallow.read arena (nestedLists 1)).result = .ok ⟨[.list ⟨0, 4⟩ [.list ⟨1, 3⟩ []]]⟩ := by
  have derives : Phrase.Derives shallow.settings.depthLimit (nestedLists 1) _ :=
    Phrase.derives_nestedLists (Nat.le_refl 1)
  have gives : (shallow.read arena (nestedLists 1)).Gives shallow (nestedLists 1) _ :=
    gives_of_derives (by decide) derives (.inl (Nat.le_trans (by decide) room))
  exact gives.result

/-- Two lists, one around the other, are read although the limit is one. -/
theorem read_exceeds_depthLimit :
    let arena : Arena := ⟨Arena.blockAddress, 512, 0, by decide, by decide, by decide⟩
    let source : List UInt8 :=
      [Byte.leftParen, Byte.leftParen, Byte.rightParen, Byte.rightParen]
    ∃ tree chain, (shallow.read arena source).result = .ok tree ∧
      (∀ form ∈ chain, form ∈ tree.walk ∧ form.isList = true) ∧ Form.Chained chain ∧
      shallow.settings.depthLimit < chain.length := by
  intro arena source
  have result : (shallow.read arena source).result = _ := result_read_shallow arena (by decide)
  refine ⟨_, [.list ⟨0, 4⟩ [.list ⟨1, 3⟩ []], .list ⟨1, 3⟩ []], result, ?_,
    ⟨.child (List.mem_singleton_self _), trivial⟩, by decide⟩
  simp [Tree.walk, Form.walk, Form.children, Form.isList]

/-- Under a limit of one the inner one of two lists is empty. -/
theorem read_bounds_nesting_two_lists :
    let arena : Arena := ⟨Arena.blockAddress, 512, 0, by decide, by decide, by decide⟩
    let inner : Form := .list ⟨1, 3⟩ []
    let outer : Form := .list ⟨0, 4⟩ [inner]
    (shallow.read arena (nestedLists 1)).result = .ok ⟨[outer]⟩ ∧ Form.Chained [outer, inner] ∧
      ∃ span, inner = .list span [] := by
  intro arena inner outer
  have result : (shallow.read arena (nestedLists 1)).result = .ok ⟨[outer]⟩ :=
    result_read_shallow arena (by decide)
  have chained : Form.Chained [outer, inner] := ⟨.child (List.mem_singleton_self _), trivial⟩
  have met : ∀ form ∈ [outer, inner], form ∈ Tree.walk ⟨[outer]⟩ := by
    simp [Tree.walk, Form.walk, Form.children, outer]
  obtain ⟨-, innermost⟩ :=
    (shallow.read_bounds_nesting).1 arena _ _ result [outer, inner] met chained
  obtain ⟨span, last⟩ := innermost rfl (by simp [Form.isList, outer, inner])
  exact ⟨result, chained, span, Option.some.inj last⟩

end Session

end LispReader
