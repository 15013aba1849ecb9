import LispReader.Proofs.LexicalGrammar
import LispReader.Proofs.Placement
import LispReader.Proofs.Reading

/-!
# What a tree costs

A tree asks an arena for the bytes of its forms in a fixed order, contents before container and the
references to the top-level forms last. Where each request stops depends on where the one before it
did, because of the padding in between, so the cost of a tree is a fold over its requests from the
offset at which the arena stands. A read succeeds exactly if that fold stays inside the arena, and
otherwise it is stopped by the first request that does not fit, with the arena as that request found
it.
-/

namespace LispReader

/-! ## Requests -/

namespace Arena

/-- A number of bytes that are needed at a multiple of a positive alignment. -/
structure Request where
  size : Nat
  align : Nat
  align_pos : 0 < align := by decide

namespace Request

/-- Where the bytes stop if they start at the first multiple of the alignment from `offset` on. -/
def stop (offset : Nat) (request : Request) : Nat :=
  (offset + request.align - 1) / request.align * request.align + request.size

/-- Where the last of some requests stops if each is placed behind the one before it. -/
def stopAll (offset : Nat) (requests : List Request) : Nat := requests.foldl stop offset

/-- A request that is not met, and the offset behind which it would have been placed. -/
structure Shortage where
  request : Request
  offset : Nat

/-- Meets requests one after the other inside `capacity` bytes, up to the first that does not fit.
-/
def meet (capacity offset : Nat) : List Request → Except Shortage Nat
  | [] => .ok offset
  | request :: rest =>
    if request.stop offset ≤ capacity then meet capacity (request.stop offset) rest
    else .error ⟨request, offset⟩

/-- The first multiple of the alignment is not before the offset, and the bytes come after it. -/
theorem le_stop (offset : Nat) (request : Request) :
    offset + request.size ≤ request.stop offset := by
  have positive := request.align_pos
  have parts := Nat.div_add_mod (offset + request.align - 1) request.align
  have rest := Nat.mod_lt (offset + request.align - 1) positive
  rw [Nat.mul_comm] at parts
  simp only [stop]
  omega

/-- Requests after others go on from where those stop. -/
theorem stopAll_append (offset : Nat) (first second : List Request) :
    stopAll offset (first ++ second) = stopAll (stopAll offset first) second :=
  List.foldl_append

/-- Requests stop no earlier than they start. -/
theorem le_stopAll (offset : Nat) (requests : List Request) : offset ≤ stopAll offset requests := by
  induction requests generalizing offset with
  | nil => exact Nat.le_refl offset
  | cons request rest ih =>
    have later := request.le_stop offset
    have others := ih (request.stop offset)
    exact Nat.le_trans (by omega) others

/-- Requests are met in two parts. -/
theorem meet_append (capacity offset : Nat) (first second : List Request) :
    meet capacity offset (first ++ second) = (do
      let between ← meet capacity offset first
      meet capacity between second) := by
  induction first generalizing offset with
  | nil => rfl
  | cons request rest ih =>
    simp only [List.cons_append, meet]
    split
    · exact ih _
    · rfl

/-- Requests that are all met stop where the fold over them does. -/
theorem meet_eq_ok {capacity offset stopped : Nat} {requests : List Request}
    (met : meet capacity offset requests = .ok stopped) : stopped = stopAll offset requests := by
  induction requests generalizing offset with
  | nil =>
    cases met
    rfl
  | cons request rest ih =>
    rw [meet] at met
    split at met
    · exact ih met
    · cases met

/-- Requests that all fit leave no more spoken for than there is. -/
theorem le_capacity_of_meet {capacity offset stopped : Nat} {requests : List Request}
    (inside : offset ≤ capacity) (met : meet capacity offset requests = .ok stopped) :
    stopped ≤ capacity := by
  induction requests generalizing offset with
  | nil =>
    cases met
    exact inside
  | cons request rest ih =>
    rw [meet] at met
    split at met
    · exact ih (by assumption) met
    · cases met

/-- What is not met is the first request that does not fit: those before it do. -/
theorem exists_of_meet_error {capacity offset : Nat} {requests : List Request} {shortage : Shortage}
    (inside : offset ≤ capacity) (failed : meet capacity offset requests = .error shortage) :
    ∃ before after, requests = before ++ shortage.request :: after ∧
      shortage.offset = stopAll offset before ∧ shortage.offset ≤ capacity ∧
      capacity < shortage.request.stop shortage.offset := by
  induction requests generalizing offset with
  | nil => cases failed
  | cons request rest ih =>
    rw [meet] at failed
    split at failed
    · rename_i fits
      obtain ⟨before, after, rfl, offsets, within, full⟩ := ih fits failed
      exact ⟨request :: before, after, rfl, offsets, within, full⟩
    · rename_i full
      cases failed
      exact ⟨[], rest, rfl, rfl, inside, Nat.lt_of_not_le full⟩

/-! ## Requests of forms -/

/-- A form by itself. -/
def form : Request where
  size := 32
  align := 8

/-- References to forms, next to each other. -/
def references (count : Nat) : Request where
  size := 8 * count
  align := 8

/-- The contents of a string. -/
def contents (bytes : List UInt8) : Request where
  size := bytes.length
  align := 1

end Request

end Arena

namespace Form

mutual

/-- What a form needs: what is inside it first, then the form itself. A list also has references to
its items, even if there are none. -/
def requests : Form → List Arena.Request
  | .list _ items => requestsOf items ++ [.references items.length, .form]
  | .quote _ quoted => quoted.requests ++ [.form]
  | .string _ contents => [.contents contents, .form]
  | .symbol _ _ | .integer _ _ | .float _ _ | .error _ => [.form]

/-- What forms need, one after the other. -/
def requestsOf : List Form → List Arena.Request
  | [] => []
  | form :: rest => form.requests ++ requestsOf rest

end

end Form

namespace Tree

/-- What a tree needs: its forms, and then the references to them. -/
def requests (tree : Tree) : List Arena.Request :=
  Form.requestsOf tree.forms ++ [.references tree.forms.length]

/-- Where a tree stops in an arena of which `offset` bytes are spoken for. -/
def stop (tree : Tree) (offset : Nat) : Nat := Arena.Request.stopAll offset tree.requests

end Tree

/-! ## Steps that spend -/

namespace Build

variable {α β : Type}

/-- What a step from `workspace` may end in if it makes `requests` of the arena: they are met and as
much is spoken for as they say, or the first that does not fit is refused. -/
inductive Spent (workspace : Workspace) (requests : List Arena.Request) :
    EStateM.Result ReadError Workspace α → Prop where
  | ok {value : α} {after : Workspace} (kept : after.arena.capacity = workspace.arena.capacity)
      (met : Arena.Request.meet workspace.arena.capacity.toNat workspace.arena.offset.toNat
        requests = .ok after.arena.offset.toNat) :
    Spent workspace requests (.ok value after)
  | error {size align remaining : UInt64} {stopped : Workspace} {shortage : Arena.Request.Shortage}
      (failed : Arena.Request.meet workspace.arena.capacity.toNat workspace.arena.offset.toNat
        requests = .error shortage)
      (requested : size.toNat = shortage.request.size)
      (aligned : align.toNat = shortage.request.align)
      (left : remaining.toNat = workspace.arena.capacity.toNat - shortage.offset)
      (kept : stopped.arena.offset.toNat = shortage.offset) :
    Spent workspace requests (.error (.arena (.exhausted size align remaining)) stopped)

/-- A step that makes requests of the arena if `symbols` are known, and cannot be stopped by
anything else. -/
def Spends (step : Build α) (symbols : SymbolTable) (requests : List Arena.Request) : Prop :=
  ∀ workspace, workspace.symbols = symbols → Spent workspace requests (step workspace)

namespace Spends

variable {symbols : SymbolTable} {requests requests' : List Arena.Request}

/-- A step that always goes on and leaves the arena alone makes no request. -/
theorem nothing {step : Build α}
    (free : ∀ workspace, ∃ value after, step workspace = .ok value after ∧
      after.arena = workspace.arena) : Spends step symbols [] := by
  intro workspace known
  obtain ⟨value, after, ran, same⟩ := free workspace
  rw [ran]
  apply Spent.ok
  · rw [same]
  · rw [same]
    rfl

/-- Giving a value makes no request. -/
theorem pure (value : α) : Spends (Pure.pure value) symbols [] :=
  nothing fun workspace => ⟨value, workspace, rfl, rfl⟩

/-- A step after another makes its requests behind those of that one. -/
theorem bind {first : Build α} {second : α → Build β} {cost : Nat}
    {result : SymbolTable → Converted α} (reads : Converts first cost result)
    (spends : Spends first symbols requests)
    (goes_on : Spends (second (result symbols).value) (result symbols).symbols requests') :
    Spends (first >>= second) symbols (requests ++ requests') := by
  rintro workspace rfl
  have spent := spends workspace rfl
  have read := reads workspace
  generalize ran : first workspace = outcome at spent read
  cases spent with
  | @ok value after kept met =>
    rw [bind_of_ok ran]
    rcases read with ⟨arena, same, -⟩ | ⟨problem, stopped, same, -⟩
    · cases same
      have spent' := goes_on ⟨arena, (result workspace.symbols).symbols,
        workspace.findings ++ (result workspace.symbols).findings⟩ rfl
      simp only at kept met spent'
      generalize second _ _ = outcome' at spent' ⊢
      cases spent' with
      | ok kept' met' =>
        simp only [kept] at kept' met'
        refine .ok kept' ?_
        rw [Arena.Request.meet_append, met]
        exact met'
      | error failed requested aligned left kept' =>
        simp only [kept] at failed left
        refine .error ?_ requested aligned left kept'
        rw [Arena.Request.meet_append, met]
        exact failed
    · cases same
  | error failed requested aligned left kept =>
    rw [bind_of_error ran]
    refine .error ?_ requested aligned left kept
    rw [Arena.Request.meet_append, failed]
    rfl

/-- A step before one that gives a value makes all the requests. -/
theorem map {first : Build α} {cost : Nat} {result : SymbolTable → Converted α}
    (reads : Converts first cost result) (spends : Spends first symbols requests)
    (give : α → β) : Spends (do let value ← first; return give value) symbols requests := by
  rw [← List.append_nil requests]
  exact bind reads spends (pure _)

/-- Paying is one request. -/
theorem reserve {size align : UInt64} (request : Arena.Request) (sized : size.toNat = request.size)
    (aligned : align.toNat = request.align) (power : align.toNat.isPowerOfTwo)
    (shared : align.toNat ∣ 16) : Spends (reserve size align) symbols [request] := by
  rintro workspace rfl
  rw [aligned] at shared
  have multiple : request.align ∣ workspace.arena.base.toNat :=
    Nat.dvd_trans shared (Nat.dvd_of_mod_eq_zero workspace.arena.base_aligned)
  have rounded := Arena.firstAligned_of_dvd request.align_pos multiple
    workspace.arena.offset.toNat
  have decides := Arena.decides_allocate workspace.arena size align
  rw [Build.reserve]
  generalize workspace.arena.allocate size align = answer at decides
  cases decides with
  | improper odd => exact absurd power odd
  | @granted start address after _ first fits placed taken base capacity =>
    rw [aligned] at first
    have stops : request.stop workspace.arena.offset.toNat = after.offset.toNat := by
      rw [taken, sized, first.unique rounded, Arena.Request.stop]
    refine .ok capacity ?_
    rw [Arena.Request.meet, stops, if_pos (by omega), Arena.Request.meet]
  | @exhausted start _ first full =>
    rw [aligned] at first
    have stops : request.stop workspace.arena.offset.toNat = start + size.toNat := by
      rw [sized, first.unique rounded, Arena.Request.stop]
    have failed : Arena.Request.meet workspace.arena.capacity.toNat workspace.arena.offset.toNat
        [request] = .error ⟨request, workspace.arena.offset.toNat⟩ := by
      rw [Arena.Request.meet, stops, if_neg (Nat.not_le_of_lt full)]
    exact .error failed sized aligned workspace.arena.toNat_remaining rfl

/-- Paying for a form is the request of one. -/
theorem reserveForm : Spends reserveForm symbols [.form] :=
  reserve .form rfl rfl ⟨3, rfl⟩ (by decide)

/-- Paying for references is the request of them, if there are not too many to count. -/
theorem reserveReferences {count : Nat} (few : 8 * count < UInt64.size) :
    Spends (reserveReferences count) symbols [.references count] :=
  reserve (.references count) (UInt64.toNat_ofNat_of_lt' few) rfl ⟨3, rfl⟩ (by decide)

end Spends

end Build

namespace LeafKind

/-- What the contents of a leaf need. -/
def requests (kind : LeafKind) (lexeme : List UInt8) : List Arena.Request :=
  match kind with
  | .string => [.contents (Escape.literalContents lexeme)]
  | .atom | .integer | .float | .error => []

/-- A leaf needs its contents and then itself, whatever it is read as. -/
theorem requests_convert (kind : LeafKind) (span : Span) (lexeme : List UInt8)
    (symbols : SymbolTable) :
    (kind.convert span lexeme symbols).value.requests = kind.requests lexeme ++ [.form] := by
  cases kind with
  | atom | integer | float =>
    simp only [convert]
    split <;> rfl
  | string | error => rfl

end LeafKind

namespace Build.Spends

variable {symbols : SymbolTable}

/-- Reading a leaf requests its contents. -/
theorem content (kind : LeafKind) (span : Span) {lexeme : List UInt8}
    (short : lexeme.length < UInt64.size) :
    Spends (content kind span lexeme) symbols (kind.requests lexeme) := by
  cases kind with
  | atom =>
    simp only [Build.content, atom]
    split
    · exact nothing fun _ => ⟨_, _, rfl, rfl⟩
    · exact nothing fun _ => ⟨_, _, rfl, rfl⟩
  | integer =>
    simp only [Build.content, integer]
    split
    · exact pure _
    · exact nothing fun _ => ⟨_, _, rfl, rfl⟩
  | float =>
    simp only [Build.content, float]
    split
    · exact pure _
    · exact nothing fun _ => ⟨_, _, rfl, rfl⟩
  | string =>
    have shorter := Escape.length_literalContents_le lexeme
    have sized := UInt64.toNat_ofNat_of_lt' (Nat.lt_of_le_of_lt shorter short)
    have pays : Spends (Build.reserve (Escape.literalContents lexeme).length.toUInt64 1) symbols
        [.contents (Escape.literalContents lexeme)] :=
      reserve (.contents _) sized rfl ⟨0, rfl⟩ (by decide)
    exact map (.reserve _ (by decide)) pays _
  | error => exact pure _

/-- A leaf requests its contents and then itself. -/
theorem leaf (kind : LeafKind) (span : Span) (source : List UInt8)
    (short : span.length < UInt64.size) :
    Spends (leaf ⟨kind.tokenKind, span⟩ source) symbols
      (kind.convert span (span.slice source) symbols).value.requests := by
  have shorter : (span.slice source).length ≤ span.length := by
    simp only [Span.slice, List.length_take]
    omega
  rw [leaf_eq, LeafKind.requests_convert]
  apply bind (.content kind span _) (content kind span (Nat.lt_of_le_of_lt shorter short))
  exact map .reserveForm reserveForm _

mutual

/-- Building the form of a phrase requests what the form needs. -/
theorem build (source : List UInt8) (symbols : SymbolTable) (phrase : Phrase)
    (small : phrase.cost < UInt64.size) :
    Spends (phrase.build source) symbols (phrase.convert source symbols).value.requests := by
  match phrase with
  | .leaf kind span =>
    simp only [Phrase.cost] at small
    exact leaf kind span source (by omega)
  | .list opening items closing =>
    simp only [Phrase.cost] at small
    have few : 8 * (Phrase.convertAll source symbols items).value.length < UInt64.size := by
      rw [Phrase.length_convertAll]
      omega
    simp only [Phrase.build, Phrase.convert, Form.requests]
    apply bind (.buildAll source items) (buildAll source symbols items (by omega))
    rw [← List.singleton_append]
    apply bind (.reserveReferences _) (reserveReferences few)
    exact map .reserveForm reserveForm _
  | .quote mark quoted =>
    simp only [Phrase.cost] at small
    simp only [Phrase.build, Phrase.convert, Form.requests]
    apply bind (.build source quoted) (build source symbols quoted (by omega))
    exact map .reserveForm reserveForm _

/-- Building the forms of phrases requests what the forms need. -/
theorem buildAll (source : List UInt8) (symbols : SymbolTable) (phrases : List Phrase)
    (small : Phrase.costAll phrases < UInt64.size) :
    Spends (Phrase.buildAll source phrases) symbols
      (Form.requestsOf (Phrase.convertAll source symbols phrases).value) := by
  match phrases with
  | [] => exact pure _
  | phrase :: rest =>
    simp only [Phrase.costAll] at small
    simp only [Phrase.buildAll, Phrase.convertAll, Form.requestsOf]
    apply bind (.build source phrase) (build source symbols phrase (by omega))
    exact map (.buildAll source rest) (buildAll source _ rest (by omega)) _

end

end Build.Spends

/-! ## Reads -/

/-- The tokens of phrases and the end of the input request what the tree of their forms needs. -/
theorem Nest.spends_run {limit : Nat} (source : List UInt8) (symbols : SymbolTable)
    {phrases : List Phrase} {final : Token} (nonempty : phrases ≠ [])
    (within : Phrase.WithinAll limit 0 phrases) (last : final.kind = .endOfInput)
    (small : Phrase.costAll phrases + 8 * phrases.length < UInt64.size) :
    Build.Spends (empty.run limit source (Phrase.tokensAll phrases ++ [final])) symbols
      (Tree.requests ⟨(Phrase.convertAll source symbols phrases).value⟩) := by
  have count := Phrase.length_convertAll source symbols phrases
  have some_form : (Phrase.convertAll source symbols phrases).value.reverse ≠ [] :=
    fun none_read => Phrase.convertAll_ne_nil source symbols nonempty
      (List.reverse_eq_nil_iff.mp none_read)
  rw [empty, run_tokensAll phrases [] [final] within, Tree.requests]
  apply Build.Spends.bind (.buildAll source phrases) (.buildAll source symbols phrases (by omega))
  rw [run, if_pos last, List.append_nil, finish_of_complete _ some_form, List.length_reverse,
    List.reverse_reverse]
  exact .map (.reserveReferences _) (.reserveReferences (by omega)) _

namespace Session

/-- A source that is read as a tree in some arena is read in another exactly if the tree stops
inside it, counted from the bytes that are spoken for already. Then the tree is the same and as much
is spoken for as it says. Otherwise the read is stopped by the first request of the tree that does
not fit, with the arena as the requests before it left it. -/
theorem read_ok_iff_stop_le (session : Session) (roomy arena : Arena) (source : List UInt8)
    (tree : Tree) (succeeds : (session.read roomy source).result = .ok tree) :
    let reading := session.read arena source
    let capacity := arena.capacity.toNat
    let offset := arena.offset.toNat
    ((∃ other, reading.result = .ok other) ↔ tree.stop offset ≤ capacity) ∧
      (tree.stop offset ≤ capacity →
        reading.result = .ok tree ∧ reading.arena.offset.toNat = tree.stop offset) ∧
      (capacity < tree.stop offset →
        ∃ before request after, tree.requests = before ++ request :: after ∧
          Arena.Request.stopAll offset before ≤ capacity ∧
          capacity < request.stop (Arena.Request.stopAll offset before) ∧
          reading.arena.offset.toNat = Arena.Request.stopAll offset before ∧
          ∃ size align remaining,
            reading.result = .error (.arena (.exhausted size align remaining)) ∧
            size.toNat = request.size ∧ align.toNat = request.align ∧
            remaining.toNat = capacity - Arena.Request.stopAll offset before) := by
  intro reading capacity offset
  obtain ⟨short, -⟩ := derives_of_read succeeds
  obtain ⟨phrases, derives, shape, -⟩ := gives_of_read succeeds
  have enough := derives.costAll_le
  have limit : Scanner.sourceLimit = 4294967296 := rfl
  have words : UInt64.size = 18446744073709551616 := rfl
  have ended : (Token.endOfInput source.length).kind = .endOfInput := rfl
  have spends := Nest.spends_run source session.symbols derives.nonempty derives.within ended
    (by omega)
  have converts := Nest.converts_run source derives.nonempty derives.within ended
  have follows := session.read_follows arena short
  rw [derives.tokens] at spends converts
  rw [← shape] at spends
  -- One run spends and converts: what it requests is known from one, what it gives from the other.
  have spent := spends ⟨arena, session.symbols, []⟩ rfl
  have read := converts ⟨arena, session.symbols, []⟩
  generalize Nest.empty.run _ _ _ _ = run at follows spent read
  have inside := arena.offset_le_capacity
  have result : reading.result = Build.outcome run := follows.result
  have kept : reading.arena = (Build.after run).arena := follows.arena
  cases spent with
  | @ok forms done _ met =>
    rcases read with ⟨arena', same, -⟩ | ⟨problem, stopped, same, -⟩
    · cases same
      have read_so : reading.result = .ok tree := shape ▸ result
      have stops : reading.arena.offset.toNat = tree.stop offset :=
        (congrArg (fun arena => arena.offset.toNat) kept).trans (Arena.Request.meet_eq_ok met)
      have fits : tree.stop offset ≤ capacity := by
        rw [← stops, kept]
        exact Arena.Request.le_capacity_of_meet inside met
      exact ⟨iff_of_true ⟨tree, read_so⟩ fits, fun _ => ⟨read_so, stops⟩,
        fun full => absurd fits (Nat.not_le_of_lt full)⟩
    · cases same
  | @error size align remaining stopped shortage failed requested aligned left kept' =>
    obtain ⟨before, after, parts, offsets, within, full⟩ :=
      Arena.Request.exists_of_meet_error inside failed
    rw [offsets] at within full left kept'
    have exceeds : capacity < tree.stop offset := by
      rw [Tree.stop, parts, Arena.Request.stopAll_append]
      exact Nat.lt_of_lt_of_le full (Arena.Request.le_stopAll _ after)
    have stopped_there : reading.arena.offset.toNat = Arena.Request.stopAll offset before :=
      (congrArg (fun arena => arena.offset.toNat) kept).trans kept'
    have unread : ¬∃ other, reading.result = .ok other := by
      rintro ⟨other, read_so⟩
      cases result.symm.trans read_so
    exact ⟨iff_of_false unread (Nat.not_le_of_lt exceeds),
      fun fits => absurd fits (Nat.not_le_of_lt exceeds),
      fun _ => ⟨before, shortage.request, after, parts, within, full, stopped_there,
        size, align, remaining, result, requested, aligned, left⟩⟩

/-- Three bytes are spoken for and five of padding come before an empty list: it asks for no
references, for itself and for the reference to it, and stops at forty-eight. That many bytes are
enough, and with seven there is not even room for the padding. -/
theorem read_ok_iff_stop_le_empty_list :
    let source : List UInt8 := [Byte.leftParen, Byte.rightParen]
    let session : Session := .create .default
    let tree : Tree := ⟨[.list ⟨0, 2⟩ []]⟩
    let roomy : Arena := ⟨Arena.blockAddress, 256, 0, by decide, by decide, by decide⟩
    let enough : Arena := ⟨Arena.blockAddress, 48, 3, by decide, by decide, by decide⟩
    let scarce : Arena := ⟨Arena.blockAddress, 7, 3, by decide, by decide, by decide⟩
    (session.read roomy source).result = .ok tree ∧ tree.stop 3 = 48 ∧
      (session.read enough source).arena.offset.toNat = 48 ∧
      ∃ size align remaining,
        (session.read scarce source).result = .error (.arena (.exhausted size align remaining)) := by
  intro source session tree roomy enough scarce
  have tokens : Scanner.tokens source = [⟨.leftParen, ⟨0, 1⟩⟩, ⟨.rightParen, ⟨1, 2⟩⟩,
      .endOfInput 2] := by
    rw [Scanner.tokens_eq_cut, Scanner.cut_leftParen, Scanner.cut_rightParen, Scanner.cut_nil]
    rfl
  have derives : Phrase.Derives session.settings.depthLimit source
      [.list ⟨0, 1⟩ [] ⟨1, 2⟩] :=
    ⟨by simp, tokens.symm, ⟨Nat.zero_le _, trivial⟩, trivial⟩
  have succeeds : (session.read roomy source).result = .ok tree :=
    (gives_of_derives (by decide) derives (.inl (by decide))).result
  have stops : tree.stop 3 = 48 := by
    simp [tree, Tree.stop, Tree.requests, Form.requestsOf, Form.requests, Arena.Request.stopAll,
      Arena.Request.stop, Arena.Request.form, Arena.Request.references]
  have within := read_ok_iff_stop_le session roomy enough source tree succeeds
  have beyond := read_ok_iff_stop_le session roomy scarce source tree succeeds
  obtain ⟨-, -, -, -, -, -, -, size, align, remaining, refused, -⟩ := beyond.2.2 (stops ▸ by decide)
  exact ⟨succeeds, stops, (within.2.1 (Nat.le_of_eq stops)).2.trans stops,
    size, align, remaining, refused⟩

end Session

end LispReader
