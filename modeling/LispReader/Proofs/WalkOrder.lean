import LispReader.Form

/-!
# The order of a walk

A walk keeps a worklist that shrinks by one form and grows by its children at every visit. What it
comes to can be said without a worklist: it is the preorder of the forms, by recursion on each form,
and it goes through the addresses of all forms in lexicographic order, so that it meets every form
once, parents before children and siblings from left to right. A stack that holds the worklist the
other way round visits the same forms one by one, and is empty exactly when all have been visited.
-/

namespace LispReader

namespace Form

/-! ## Preorder -/

mutual

/-- A form and then its children in order, each followed by what is inside it. -/
def preorder : Form → List Form
  | .list span items => .list span items :: preorderAll items
  | .quote span quoted => .quote span quoted :: quoted.preorder
  | leaf => [leaf]

/-- The preorder of one form after the other. -/
def preorderAll : List Form → List Form
  | [] => []
  | form :: rest => form.preorder ++ preorderAll rest

end

/-- A form comes before what is inside it, child by child. -/
theorem preorder_eq_children (form : Form) : form.preorder = form :: preorderAll form.children := by
  cases form <;> simp [preorder, preorderAll, children]

/-- The preorder of forms is put together from those of each. -/
theorem preorderAll_eq_flatMap (forms : List Form) : preorderAll forms = forms.flatMap preorder := by
  induction forms with
  | nil => rfl
  | cons form rest ih => rw [preorderAll, ih, List.flatMap_cons]

/-- The preorder of two rows of forms is that of one and then that of the other. -/
theorem preorderAll_append (first second : List Form) :
    preorderAll (first ++ second) = preorderAll first ++ preorderAll second := by
  simp only [preorderAll_eq_flatMap, List.flatMap_append]

/-- Only no forms at all have an empty preorder. -/
theorem preorderAll_eq_nil {forms : List Form} : preorderAll forms = [] ↔ forms = [] := by
  cases forms with
  | nil => exact ⟨fun _ => rfl, fun _ => rfl⟩
  | cons form rest => simp [preorderAll, preorder_eq_children]

/-- Whatever the worklist, a walk of it is its preorder. -/
theorem walk_eq_preorderAll (worklist : List Form) : walk worklist = preorderAll worklist := by
  fun_induction walk worklist with
  | case1 => rfl
  | case2 form rest ih =>
    rw [ih, preorderAll_append, preorderAll, preorder_eq_children, List.cons_append]

/-- A walk visits as many forms as there are. -/
theorem length_walk (worklist : List Form) : (walk worklist).length = sizeAll worklist := by
  fun_induction walk worklist with
  | case1 => rfl
  | case2 form rest ih =>
    rw [List.length_cons, ih, sizeAll_append, sizeAll, size_eq_children]
    omega

/-! ## Stacks -/

/-- Takes the form on top of a stack, which is its last one, and puts the children of this form onto
the stack, the last child first. -/
def visit? (stack : List Form) : Option (Form × List Form) :=
  match stack.getLast? with
  | none => none
  | some form => some (form, stack.dropLast ++ form.children.reverse)

/-- The forms of the next `count` visits, or of fewer if the stack is empty before that, and the
stack after them. -/
def visits : (count : Nat) → (stack : List Form) → List Form × List Form
  | 0, stack => ([], stack)
  | count + 1, stack =>
    match visit? stack with
    | none => ([], stack)
    | some (form, stack) =>
      let later := visits count stack
      (form :: later.1, later.2)

/-- The first form of a worklist is on top of the stack, and its children come on top of the others
with the first child last. -/
theorem visit?_reverse_cons (form : Form) (rest : List Form) :
    visit? (form :: rest).reverse = some (form, (form.children ++ rest).reverse) := by
  simp [visit?, List.reverse_append]

/-- There is nothing to visit only on an empty stack. -/
theorem visit?_eq_none {stack : List Form} : visit? stack = none ↔ stack = [] := by
  rw [visit?, ← List.getLast?_eq_none_iff]
  cases stack.getLast? <;> simp

/-- After any number of visits, the forms visited are as many of the walk, and what is inside the
forms on the stack is the rest of it. -/
theorem visits_reverse (count : Nat) (worklist : List Form) :
    (visits count worklist.reverse).1 = (walk worklist).take count ∧
      preorderAll (visits count worklist.reverse).2.reverse = (walk worklist).drop count := by
  induction count generalizing worklist with
  | zero =>
    refine ⟨rfl, ?_⟩
    rw [visits, List.reverse_reverse, List.drop_zero, walk_eq_preorderAll]
  | succ count ih =>
    cases worklist with
    | nil => exact ⟨by rw [walk]; rfl, by rw [walk]; rfl⟩
    | cons form rest =>
      obtain ⟨visited, left⟩ := ih (form.children ++ rest)
      rw [visits, visit?_reverse_cons, walk, List.take_succ_cons, List.drop_succ_cons, ← left,
        ← visited]
      exact ⟨rfl, rfl⟩

/-! ## Addresses -/

/-- The form at an address inside a form: each number says which child to go to. -/
def at? : Form → List Nat → Option Form
  | form, [] => some form
  | form, place :: rest => form.children[place]?.bind fun child => child.at? rest

/-- The form at an address in a row of forms, whose first number says which of them it is in. -/
def atOf? (forms : List Form) : List Nat → Option Form
  | [] => none
  | place :: rest => forms[place]?.bind fun form => form.at? rest

mutual

/-- The addresses of a form and of everything inside it, in the order in which a reader meets
them. -/
def addresses : Form → List (List Nat)
  | .list _ items => [] :: addressesFrom 0 items
  | .quote _ quoted => [] :: quoted.addresses.map (0 :: ·)
  | _ => [[]]

/-- The addresses in a row of forms that are counted from `place`. -/
def addressesFrom (place : Nat) : List Form → List (List Nat)
  | [] => []
  | form :: rest => form.addresses.map (place :: ·) ++ addressesFrom (place + 1) rest

end

/-- Behind a form's own address, which is empty, come those inside its children. -/
theorem addresses_eq_children (form : Form) :
    form.addresses = [] :: addressesFrom 0 form.children := by
  cases form <;> simp [addresses, addressesFrom, children]

/-- An address in a row starts with the place of a form and goes on inside this form. -/
theorem mem_addressesFrom {place : Nat} {forms : List Form} {address : List Nat} :
    address ∈ addressesFrom place forms ↔ ∃ index rest form, address = (place + index) :: rest ∧
      forms[index]? = some form ∧ rest ∈ form.addresses := by
  induction forms generalizing place with
  | nil => simp [addressesFrom]
  | cons first others ih =>
    rw [addressesFrom, List.mem_append, List.mem_map, ih]
    constructor
    · rintro (⟨rest, member, rfl⟩ | ⟨index, rest, form, rfl, found, member⟩)
      · exact ⟨0, rest, first, rfl, rfl, member⟩
      · exact ⟨index + 1, rest, form, by rw [Nat.add_right_comm, Nat.add_assoc], found, member⟩
    · rintro ⟨index, rest, form, rfl, found, member⟩
      cases index with
      | zero =>
        cases found
        exact .inl ⟨rest, member, rfl⟩
      | succ index =>
        exact .inr ⟨index, rest, form, by rw [Nat.add_right_comm, Nat.add_assoc], found, member⟩

/-- The addresses of a form are those at which there is a form inside it. -/
theorem mem_addresses {form : Form} {address : List Nat} :
    address ∈ form.addresses ↔ ∃ inner, form.at? address = some inner := by
  induction address generalizing form with
  | nil => simp [addresses_eq_children, at?]
  | cons place rest ih =>
    rw [addresses_eq_children, List.mem_cons, mem_addressesFrom]
    simp only [reduceCtorEq, false_or, at?, Option.bind_eq_some_iff]
    constructor
    · rintro ⟨index, tail, child, same, found, member⟩
      rw [Nat.zero_add] at same
      cases same
      obtain ⟨inner, known⟩ := ih.mp member
      exact ⟨inner, child, found, known⟩
    · rintro ⟨inner, child, found, known⟩
      exact ⟨place, rest, child, by rw [Nat.zero_add], found, ih.mpr ⟨inner, known⟩⟩

/-- The addresses in a row of forms are those at which there is a form in it. -/
theorem mem_addressesFrom_zero {forms : List Form} {address : List Nat} :
    address ∈ addressesFrom 0 forms ↔ ∃ inner, atOf? forms address = some inner := by
  rw [mem_addressesFrom]
  cases address with
  | nil => simp [atOf?]
  | cons place rest =>
    simp only [atOf?, Option.bind_eq_some_iff, Nat.zero_add, mem_addresses]
    constructor
    · rintro ⟨index, tail, form, same, found, inner, known⟩
      cases same
      exact ⟨inner, form, found, known⟩
    · rintro ⟨inner, form, found, known⟩
      exact ⟨place, rest, form, rfl, found, inner, known⟩

mutual

/-- The addresses of a form are in lexicographic order. -/
theorem pairwise_addresses (form : Form) : form.addresses.Pairwise (List.Lex (· < ·)) := by
  match form with
  | .list span items =>
    rw [addresses, List.pairwise_cons]
    refine ⟨fun address member => ?_, pairwise_addressesFrom 0 items⟩
    obtain ⟨index, rest, inner, rfl, -, -⟩ := mem_addressesFrom.mp member
    exact .nil
  | .quote span quoted =>
    rw [addresses, List.pairwise_cons]
    refine ⟨fun address member => ?_, ?_⟩
    · obtain ⟨rest, -, rfl⟩ := List.mem_map.mp member
      exact .nil
    · exact (pairwise_addresses quoted).map _ fun _ _ before => .cons before
  | .symbol _ _ | .integer _ _ | .float _ _ | .string _ _ | .error _ =>
    exact List.pairwise_singleton _ _

/-- The addresses in a row of forms are in lexicographic order. -/
theorem pairwise_addressesFrom (place : Nat) (forms : List Form) :
    (addressesFrom place forms).Pairwise (List.Lex (· < ·)) := by
  match forms with
  | [] => exact .nil
  | form :: rest =>
    rw [addressesFrom, List.pairwise_append]
    refine ⟨(pairwise_addresses form).map _ fun _ _ before => .cons before,
      pairwise_addressesFrom (place + 1) rest, fun address member later behind => ?_⟩
    obtain ⟨inside, -, rfl⟩ := List.mem_map.mp member
    obtain ⟨index, tail, other, rfl, -, -⟩ := mem_addressesFrom.mp behind
    exact .rel (by omega)

end

mutual

/-- The preorder of a form lists the forms at its addresses. -/
theorem map_preorder (form : Form) : form.preorder.map some = form.addresses.map form.at? := by
  match form with
  | .list span items =>
    have inside := map_preorderAll [] items
    rw [preorder, addresses, List.map_cons, List.map_cons, inside]
    refine congrArg (List.cons _) (List.map_congr_left fun address member => ?_)
    obtain ⟨index, rest, inner, rfl, -, -⟩ := mem_addressesFrom.mp member
    rfl
  | .quote span quoted =>
    rw [preorder, addresses, List.map_cons, List.map_cons, map_preorder quoted, List.map_map]
    rfl
  | .symbol _ _ | .integer _ _ | .float _ _ | .string _ _ | .error _ => rfl

/-- The preorder of forms behind others lists the forms at their addresses. -/
theorem map_preorderAll (earlier forms : List Form) :
    (preorderAll forms).map some =
      (addressesFrom earlier.length forms).map (atOf? (earlier ++ forms)) := by
  match forms with
  | [] => rfl
  | form :: rest =>
    have others := map_preorderAll (earlier ++ [form]) rest
    rw [List.length_append, List.append_assoc] at others
    rw [preorderAll, addressesFrom, List.map_append, List.map_append, map_preorder form,
      List.map_map, others]
    refine congrArg (· ++ _) (List.map_congr_left fun address _ => ?_)
    simp [atOf?]

end

end Form

namespace Tree

/-- A walk of a tree is the preorder of its forms. It meets the forms of the tree in the
lexicographic order of their addresses, so each of them once, parents before children and siblings
from left to right. A stack that starts with the forms of the tree, the first on top, visits them in
this order as well, has on it what is still to be visited, and runs out after as many visits as
there are forms. -/
theorem walk_visits_preorder (tree : Tree) :
    tree.walk = tree.forms.flatMap Form.preorder ∧
      (∀ form : Form, form.preorder = form :: form.children.flatMap Form.preorder) ∧
      (∃ addresses : List (List Nat), addresses.Pairwise (List.Lex (· < ·)) ∧
        (∀ address, address ∈ addresses ↔ ∃ form, Form.atOf? tree.forms address = some form) ∧
        tree.walk.map some = addresses.map (Form.atOf? tree.forms)) ∧
      tree.walk.length = Form.sizeAll tree.forms ∧
      ∀ count,
        let visits := Form.visits count tree.forms.reverse
        visits.1 = tree.walk.take count ∧
          visits.2.reverse.flatMap Form.preorder = tree.walk.drop count ∧
          (Form.visit? visits.2 = none ↔ Form.sizeAll tree.forms ≤ count) := by
  refine ⟨?_, fun form => ?_, ⟨Form.addressesFrom 0 tree.forms, Form.pairwise_addressesFrom 0 _,
    fun address => Form.mem_addressesFrom_zero, ?_⟩, Form.length_walk _, fun count => ?_⟩
  · rw [walk, Form.walk_eq_preorderAll, Form.preorderAll_eq_flatMap]
  · rw [← Form.preorderAll_eq_flatMap, Form.preorder_eq_children]
  · rw [walk, Form.walk_eq_preorderAll]
    exact Form.map_preorderAll [] tree.forms
  · obtain ⟨visited, left⟩ := Form.visits_reverse count tree.forms
    refine ⟨visited, by rw [← Form.preorderAll_eq_flatMap]; exact left, ?_⟩
    rw [Form.visit?_eq_none, ← List.reverse_eq_nil_iff, ← Form.preorderAll_eq_nil, left,
      List.drop_eq_nil_iff, Form.length_walk]

end Tree

end LispReader
