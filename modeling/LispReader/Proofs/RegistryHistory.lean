import LispReader.Proofs.SessionHistory
import LispReader.Session.Registry

/-!
# What a registry has been through

Sessions are used through handles, any number of them on each, in any order. A chronicle is written
down from the requests and the replies alone: whose handle each handle is, and for every session the
events that happened through its handles. The registry accounts for its chronicle at any time. So
a session is held by those handles on it that were given out and not given up, it has been through
its own events and no others, and what is done through a handle leaves the other sessions alone.
-/

namespace LispReader

/-! ## Requests -/

/-- What can be asked of a registry. -/
inductive Request where
  | create (settings : Settings)
  | acquire (handle : Nat)
  | release (handle : Nat)
  | perform (handle : Nat) (act : Session.Act)

/-- What a registry answers. -/
inductive Reply where
  | given (handle : Nat)
  | released
  | happened (event : Session.Event)
  | refused

namespace Request

/-- The handle that a request is made through, if it is made through one. -/
def handle? : Request → Option Nat
  | .create _ => none
  | .acquire handle | .release handle | .perform handle _ => some handle

end Request

namespace Registry

/-- Serves a request. What is asked through a handle that is not live is refused. -/
def serve (registry : Registry) : Request → Reply × Registry
  | .create settings =>
    let (handle, registry) := registry.create settings
    (.given handle, registry)
  | .acquire handle =>
    match registry.acquire? handle with
    | some (other, registry) => (.given other, registry)
    | none => (.refused, registry)
  | .release handle =>
    match registry.release? handle with
    | some registry => (.released, registry)
    | none => (.refused, registry)
  | .perform handle act =>
    match registry.through? handle fun session => session.perform act with
    | some (event, registry) => (.happened event, registry)
    | none => (.refused, registry)

end Registry

/-! ## Chronicles -/

/-- The history of every session, in the order in which they were created, and the session of every
handle that was given out, unless it was given up. -/
structure Chronicle where
  histories : List (List Session.Event)
  owners : List (Option Nat)

namespace Chronicle

/-- The chronicle of a registry that knows no session. -/
def blank : Chronicle := ⟨[], []⟩

/-- The session of a handle, unless it was given up or never given out. -/
def owner? (chronicle : Chronicle) (handle : Nat) : Option Nat := chronicle.owners[handle]?.join

/-- The number of handles on a session that were given out and not given up. -/
def holders (chronicle : Chronicle) (key : Nat) : Nat := chronicle.owners.count (some key)

/-- Writes down a request and the reply to it. -/
def enter (chronicle : Chronicle) : Request → Reply → Chronicle
  | .create _, .given _ =>
    ⟨chronicle.histories ++ [[]], chronicle.owners ++ [some chronicle.histories.length]⟩
  | .acquire handle, .given _ =>
    { chronicle with owners := chronicle.owners ++ [chronicle.owner? handle] }
  | .release handle, .released =>
    { chronicle with owners := chronicle.owners.set handle none }
  | .perform handle _, .happened event =>
    match chronicle.owner? handle with
    | some key => { chronicle with histories := chronicle.histories.modify key (· ++ [event]) }
    | none => chronicle
  | _, _ => chronicle

/-- What is written down stays so, and more events may follow. -/
theorem exists_histories_enter {chronicle : Chronicle} {key : Nat} {history : List Session.Event}
    (written : chronicle.histories[key]? = some history) (request : Request) (reply : Reply) :
    ∃ more, (chronicle.enter request reply).histories[key]? = some (history ++ more) := by
  have same : ∃ more, chronicle.histories[key]? = some (history ++ more) :=
    ⟨[], by rw [written, List.append_nil]⟩
  unfold enter
  split
  · obtain ⟨bound, -⟩ := List.getElem?_eq_some_iff.mp written
    exact ⟨[], by rw [List.getElem?_append_left bound, written, List.append_nil]⟩
  · exact same
  · exact same
  · split
    · rename_i handle act event _ other owner
      by_cases this : other = key
      · subst this
        exact ⟨[event], by rw [List.getElem?_modify_eq, written]; rfl⟩
      · rw [List.getElem?_modify_ne _ _ this]
        exact same
    · exact same
  · exact same

end Chronicle

namespace Registry

/-- The chronicle and the registry after one more request. -/
def follow (state : Chronicle × Registry) (request : Request) : Chronicle × Registry :=
  let (reply, registry) := state.2.serve request
  (state.1.enter request reply, registry)

/-- The chronicle and the registry after requests, beginning with a registry that knows no
session. -/
def run (requests : List Request) : Chronicle × Registry :=
  requests.foldl follow (.blank, .empty)

/-! ## Live handles -/

section

variable {registry : Registry} {handle key : Nat} {shared : Shared}

/-- A live handle gives access to what is kept of its session. -/
theorem shared?_of_kept (live : registry.key? handle = some key)
    (kept : registry.sessions[key]? = some (some shared)) :
    registry.shared? handle = some shared := by
  simp only [shared?, live, kept, Option.bind_eq_bind, Option.bind_some, Option.join_some]

/-- Another handle is given out through a live one. -/
theorem serve_acquire (live : registry.key? handle = some key)
    (kept : registry.sessions[key]? = some (some shared)) :
    registry.serve (.acquire handle) = (.given registry.handles.length,
      ⟨registry.sessions.set key (some { shared with holders := shared.holders + 1 }),
        registry.handles ++ [some key]⟩) := by
  simp only [serve, acquire?, live, kept, Option.bind_eq_bind, Option.bind_some, Option.join_some]
  rfl

/-- A live handle is given up, and the session too if it was the last. -/
theorem serve_release (live : registry.key? handle = some key)
    (kept : registry.sessions[key]? = some (some shared)) :
    registry.serve (.release handle) = (.released,
      ⟨registry.sessions.set key (if shared.holders - 1 = 0 then none
        else some { shared with holders := shared.holders - 1 }),
        registry.handles.set handle none⟩) := by
  simp only [serve, release?, live, kept, Option.bind_eq_bind, Option.bind_some, Option.join_some]
  rfl

/-- What is done through a live handle is done with its session. -/
theorem serve_perform (live : registry.key? handle = some key)
    (kept : registry.sessions[key]? = some (some shared)) (act : Session.Act) :
    registry.serve (.perform handle act) = (.happened (shared.session.perform act).1,
      ⟨registry.sessions.set key (some { shared with session := (shared.session.perform act).2 }),
        registry.handles⟩) := by
  simp only [serve, through?, live, kept, Option.bind_eq_bind, Option.bind_some, Option.join_some]
  rfl

/-- What is asked through a handle that is not live changes nothing. -/
theorem serve_of_dead (dead : registry.key? handle = none) {request : Request}
    (through : request.handle? = some handle) : registry.serve request = (.refused, registry) := by
  cases request with
  | create settings => cases through
  | acquire other =>
    cases through
    simp [serve, acquire?, dead]
  | release other =>
    cases through
    simp [serve, release?, dead]
  | perform other act =>
    cases through
    simp [serve, through?, dead]

end

/-! ## Accounts -/

/-- What is kept of a session after its history: the session with the number of its holders, or
nothing if there are none. -/
inductive Keeps (holders : Nat) (history : List Session.Event) : Option Shared → Prop where
  | held {session : Session} (accounts : session.AccountsFor history) (some_holder : 0 < holders) :
    Keeps holders history (some ⟨session, holders⟩)
  | gone (nobody : holders = 0) (taken : history.flatMap Session.Event.removed <+:
      history.flatMap Session.Event.handed) : Keeps holders history none

/-- A registry that has been through what a chronicle says. -/
structure AccountsFor (registry : Registry) (chronicle : Chronicle) : Prop where
  handles : registry.handles = chronicle.owners
  keys : registry.sessions.length = chronicle.histories.length
  known : ∀ key, some key ∈ chronicle.owners → key < chronicle.histories.length
  kept : ∀ key entry history, registry.sessions[key]? = some entry →
    chronicle.histories[key]? = some history → Keeps (chronicle.holders key) history entry

/-- What a session has handed out by takes is the first part of what was handed to it. -/
theorem Keeps.removed_first_of_handed {holders : Nat} {history : List Session.Event}
    {entry : Option Shared} (keeps : Keeps holders history entry) :
    history.flatMap Session.Event.removed <+: history.flatMap Session.Event.handed := by
  cases keeps with
  | held accounts => exact ⟨_, accounts.diagnostics⟩
  | gone nobody taken => exact taken

namespace AccountsFor

variable {registry : Registry} {chronicle : Chronicle}

/-- The registry knows the sessions of the handles that are live. -/
theorem key?_eq_owner? (accounts : registry.AccountsFor chronicle) (handle : Nat) :
    registry.key? handle = chronicle.owner? handle := by
  rw [key?, accounts.handles, Chronicle.owner?]

/-- The session of a live handle is held, and accounts for its history. -/
theorem live (accounts : registry.AccountsFor chronicle) {handle key : Nat}
    (owner : chronicle.owner? handle = some key) :
    ∃ history session, chronicle.histories[key]? = some history ∧ registry.key? handle = some key ∧
      registry.sessions[key]? = some (some ⟨session, chronicle.holders key⟩) ∧
      session.AccountsFor history ∧ 0 < chronicle.holders key := by
  have member : some key ∈ chronicle.owners :=
    List.mem_of_getElem? (Option.join_eq_some_iff.mp owner)
  have bound := accounts.known key member
  have bound' : key < registry.sessions.length := accounts.keys ▸ bound
  have positive : 0 < chronicle.holders key := List.count_pos_iff.mpr member
  have keeps := accounts.kept key _ _ (List.getElem?_eq_getElem bound')
    (List.getElem?_eq_getElem bound)
  generalize entry : registry.sessions[key] = kept at keeps
  cases keeps with
  | @held session sound some_holder =>
    exact ⟨_, session, List.getElem?_eq_getElem bound, (accounts.key?_eq_owner? handle).trans owner,
      entry ▸ List.getElem?_eq_getElem bound', sound, positive⟩
  | gone nobody => omega

/-- If only what is kept of one session and the holders of that session change, the registry
accounts for the chronicle in which they change. -/
theorem update (accounts : registry.AccountsFor chronicle) {key : Nat} {entry : Option Shared}
    {histories : List (List Session.Event)} {owners : List (Option Nat)}
    (keys : histories.length = chronicle.histories.length)
    (known : ∀ other, some other ∈ owners → some other ∈ chronicle.owners)
    (others : ∀ other, other ≠ key → histories[other]? = chronicle.histories[other]? ∧
      owners.count (some other) = chronicle.owners.count (some other))
    (keeps : ∀ history, histories[key]? = some history →
      Keeps (owners.count (some key)) history entry) :
    AccountsFor ⟨registry.sessions.set key entry, owners⟩ ⟨histories, owners⟩ where
  handles := rfl
  keys := by rw [List.length_set, accounts.keys, keys]
  known other member := keys ▸ accounts.known other (known other member)
  kept other entry' history found written := by
    simp only at found written
    by_cases this : other = key
    · subst this
      obtain ⟨bound, -⟩ := List.getElem?_eq_some_iff.mp found
      rw [List.getElem?_set_self (by rwa [List.length_set] at bound)] at found
      cases found
      exact keeps history written
    · obtain ⟨same, count⟩ := others other this
      rw [List.getElem?_set_ne (Ne.symm this)] at found
      rw [same] at written
      rw [Chronicle.holders, count]
      exact accounts.kept other entry' history found written

/-- A new session is accounted for. -/
theorem create (accounts : registry.AccountsFor chronicle) (settings : Settings) :
    (registry.create settings).2.AccountsFor
      ⟨chronicle.histories ++ [[]], chronicle.owners ++ [some chronicle.histories.length]⟩ where
  handles := by rw [Registry.create, accounts.handles, accounts.keys]
  keys := by simp [Registry.create, accounts.keys]
  known key member := by
    rw [List.length_append]
    rcases List.mem_append.mp member with earlier | last
    · exact Nat.lt_add_right _ (accounts.known key earlier)
    · cases List.mem_singleton.mp last
      exact Nat.lt_succ_self _
  kept key entry history found written := by
    have unknown : some chronicle.histories.length ∉ chronicle.owners := fun member =>
      Nat.lt_irrefl _ (accounts.known _ member)
    simp only [Registry.create] at found written
    rw [Chronicle.holders, List.count_append]
    rcases Nat.lt_trichotomy key chronicle.histories.length with before | rfl | behind
    · rw [List.getElem?_append_left (accounts.keys ▸ before)] at found
      rw [List.getElem?_append_left before] at written
      have other : some chronicle.histories.length ≠ some key := by
        intro same
        cases same
        exact Nat.lt_irrefl _ before
      rw [List.count_singleton, beq_eq_false_iff_ne.mpr other]
      exact accounts.kept key entry history found written
    · rw [← accounts.keys, List.getElem?_concat_length] at found
      rw [List.getElem?_concat_length] at written
      cases found
      cases written
      rw [List.count_eq_zero_of_not_mem unknown, List.count_singleton_self]
      exact .held (Session.accountsFor_create settings) Nat.one_pos
    · rw [List.getElem?_eq_none (by rw [List.length_append]; exact behind)] at written
      cases written

/-- Another handle on a session is accounted for. -/
theorem acquire (accounts : registry.AccountsFor chronicle) {handle key : Nat}
    (owner : chronicle.owner? handle = some key) :
    (registry.serve (.acquire handle)).2.AccountsFor
      (chronicle.enter (.acquire handle) (registry.serve (.acquire handle)).1) := by
  obtain ⟨history, session, written, live, kept, sound, positive⟩ := accounts.live owner
  rw [serve_acquire live kept, accounts.handles, Chronicle.enter, owner]
  have member : some key ∈ chronicle.owners :=
    List.mem_of_getElem? (Option.join_eq_some_iff.mp owner)
  refine accounts.update rfl (fun other found => ?_) (fun other this => ⟨rfl, ?_⟩)
    fun history' found => ?_
  · rcases List.mem_append.mp found with earlier | last
    · exact earlier
    · cases List.mem_singleton.mp last
      exact member
  · have different : some key ≠ some other := fun same => this (Option.some.inj same).symm
    rw [List.count_append, List.count_singleton, beq_eq_false_iff_ne.mpr different]
    rfl
  · cases written.symm.trans found
    rw [List.count_append, List.count_singleton_self]
    exact .held sound (Nat.succ_pos _)

/-- A handle that is given up is accounted for. -/
theorem release (accounts : registry.AccountsFor chronicle) {handle key : Nat}
    (owner : chronicle.owner? handle = some key) :
    (registry.serve (.release handle)).2.AccountsFor
      (chronicle.enter (.release handle) (registry.serve (.release handle)).1) := by
  obtain ⟨history, session, written, live, kept, sound, positive⟩ := accounts.live owner
  obtain ⟨bound, owned⟩ := List.getElem?_eq_some_iff.mp (Option.join_eq_some_iff.mp owner)
  rw [serve_release live kept, accounts.handles, Chronicle.enter]
  have count (other : Nat) : (chronicle.owners.set handle none).count (some other) =
      chronicle.owners.count (some other) - if key = other then 1 else 0 := by
    rw [List.count_set bound, owned]
    simp
  refine accounts.update rfl (fun other found => ?_) (fun other this => ⟨rfl, ?_⟩)
    fun history' found => ?_
  · rcases List.mem_or_eq_of_mem_set found with earlier | last
    · exact earlier
    · cases last
  · rw [count, if_neg (Ne.symm this), Nat.sub_zero]
  · cases written.symm.trans found
    rw [count, if_pos rfl]
    split
    · rename_i nobody
      exact .gone nobody ⟨_, sound.diagnostics⟩
    · exact .held sound (Nat.pos_of_ne_zero (by assumption))

/-- What is done through a handle is accounted for. -/
theorem perform (accounts : registry.AccountsFor chronicle) {handle key : Nat}
    (owner : chronicle.owner? handle = some key) (act : Session.Act) :
    (registry.serve (.perform handle act)).2.AccountsFor
      (chronicle.enter (.perform handle act) (registry.serve (.perform handle act)).1) := by
  obtain ⟨history, session, written, live, kept, sound, positive⟩ := accounts.live owner
  rw [serve_perform live kept, accounts.handles, Chronicle.enter, owner]
  refine accounts.update (List.length_modify ..) (fun other found => found)
    (fun other this => ⟨List.getElem?_modify_ne _ _ (Ne.symm this), rfl⟩) fun history' found => ?_
  rw [List.getElem?_modify_eq, written] at found
  cases found
  exact .held (sound.perform act) positive

end AccountsFor

/-- Whatever is asked of a registry, it accounts for that and for what it answers. -/
theorem AccountsFor.serve {registry : Registry} {chronicle : Chronicle}
    (accounts : registry.AccountsFor chronicle) (request : Request) :
    (registry.serve request).2.AccountsFor
      (chronicle.enter request (registry.serve request).1) := by
  cases through : request.handle? with
  | none =>
    cases request with
    | create settings => exact accounts.create settings
    | acquire | release | perform => cases through
  | some handle =>
    cases owner : chronicle.owner? handle with
    | none =>
      rw [serve_of_dead (accounts.key?_eq_owner? handle ▸ owner) through]
      cases request <;> exact accounts
    | some key =>
      cases request with
      | create settings => cases through
      | acquire other =>
        cases through
        exact accounts.acquire owner
      | release other =>
        cases through
        exact accounts.release owner
      | perform other act =>
        cases through
        exact accounts.perform owner act

/-- What is kept behind a live handle is left alone by what is asked through handles on other
sessions. -/
theorem AccountsFor.shared?_serve {registry : Registry} {chronicle : Chronicle}
    (accounts : registry.AccountsFor chronicle) {handle key : Nat}
    (owner : chronicle.owner? handle = some key) {request : Request}
    (elsewhere : ∀ other, request.handle? = some other → chronicle.owner? other ≠ some key) :
    (registry.serve request).2.shared? handle = registry.shared? handle := by
  obtain ⟨history, session, -, live, kept, -, -⟩ := accounts.live owner
  obtain ⟨known, -⟩ := List.getElem?_eq_some_iff.mp kept
  obtain ⟨given, -⟩ := List.getElem?_eq_some_iff.mp (Option.join_eq_some_iff.mp live)
  have still {later : Registry} (handles : later.handles[handle]? = registry.handles[handle]?)
      (sessions : later.sessions[key]? = registry.sessions[key]?) :
      later.shared? handle = registry.shared? handle := by
    have live' : later.key? handle = some key := by rw [key?, handles, ← key?, live]
    rw [shared?_of_kept live' (sessions.trans kept), shared?_of_kept live kept]
  cases through : request.handle? with
  | none =>
    cases request with
    | create settings =>
      exact still (List.getElem?_append_left given) (List.getElem?_append_left known)
    | acquire | release | perform => cases through
  | some other =>
    cases owner' : chronicle.owner? other with
    | none => rw [serve_of_dead (accounts.key?_eq_owner? other ▸ owner') through]
    | some key' =>
      have keys : key' ≠ key := fun same => elsewhere other through (same ▸ owner')
      have handles : other ≠ handle := by
        rintro rfl
        exact keys (Option.some.inj (owner'.symm.trans owner))
      obtain ⟨-, session', -, live', kept', -, -⟩ := accounts.live owner'
      cases request with
      | create settings => cases through
      | acquire =>
        cases through
        rw [serve_acquire live' kept']
        exact still (List.getElem?_append_left given) (List.getElem?_set_ne keys)
      | release =>
        cases through
        rw [serve_release live' kept']
        exact still (List.getElem?_set_ne handles) (List.getElem?_set_ne keys)
      | perform _ act =>
        cases through
        rw [serve_perform live' kept']
        exact still rfl (List.getElem?_set_ne keys)

/-- What is asked through a live handle is answered. -/
theorem AccountsFor.serve_ne_refused {registry : Registry} {chronicle : Chronicle}
    (accounts : registry.AccountsFor chronicle) {handle key : Nat}
    (owner : chronicle.owner? handle = some key) {request : Request}
    (through : request.handle? = some handle) : (registry.serve request).1 ≠ .refused := by
  obtain ⟨history, session, -, live, kept, -, -⟩ := accounts.live owner
  cases request with
  | create settings => cases through
  | acquire =>
    cases through
    simp [serve_acquire live kept]
  | release =>
    cases through
    simp [serve_release live kept]
  | perform _ act =>
    cases through
    simp [serve_perform live kept]

/-- The handle that is given out is the next one. -/
theorem AccountsFor.given_eq {registry : Registry} {chronicle : Chronicle}
    (accounts : registry.AccountsFor chronicle) {request : Request} {given : Nat}
    (served : (registry.serve request).1 = .given given) : given = chronicle.owners.length := by
  rw [← accounts.handles]
  cases request with
  | create settings =>
    cases served
    rfl
  | acquire handle =>
    cases owner : chronicle.owner? handle with
    | none =>
      rw [serve_of_dead (accounts.key?_eq_owner? handle ▸ owner) rfl] at served
      cases served
    | some key =>
      obtain ⟨history, session, -, live, kept, -, -⟩ := accounts.live owner
      rw [serve_acquire live kept] at served
      cases served
      rfl
  | release handle =>
    simp only [Registry.serve] at served
    split at served <;> cases served
  | perform handle act =>
    simp only [Registry.serve] at served
    split at served <;> cases served

/-- A registry that knows no session has been through nothing. -/
theorem accountsFor_empty : empty.AccountsFor .blank where
  handles := rfl
  keys := rfl
  known _ member := absurd member List.not_mem_nil
  kept _ _ _ found := by cases found

/-- Whatever was asked of a registry, it accounts for its chronicle. -/
theorem accountsFor_foldl {state : Chronicle × Registry} (accounts : state.2.AccountsFor state.1)
    (requests : List Request) :
    (requests.foldl follow state).2.AccountsFor (requests.foldl follow state).1 := by
  induction requests generalizing state with
  | nil => exact accounts
  | cons request rest ih => exact ih (accounts.serve request)

/-- Whatever was asked of a registry that knew no session, it accounts for its chronicle. -/
theorem accountsFor_run (requests : List Request) :
    (run requests).2.AccountsFor (run requests).1 :=
  accountsFor_foldl accountsFor_empty requests

/-! ## Diagnostics -/

/-- No diagnostic of a session is lost or repeated, whatever is asked of a registry. Those that were
taken from a session are always the first of those that were handed to it by reports and reads,
whatever came of these. Through every live handle the rest of them wait, in order, so that the
session has errors exactly if one of these is an error, and the handles that were given out for it
and not given up are its holders. What is asked through handles on other sessions leaves it as it
is. What is asked through a live handle is answered, anything else is refused without effect, and
every handle that is given out is new. -/
theorem run_keeps_diagnostics (requests : List Request) :
    let chronicle := (run requests).1
    let registry := (run requests).2
    (∀ (key : Nat) (history : List Session.Event), chronicle.histories[key]? = some history →
      history.flatMap Session.Event.removed <+: history.flatMap Session.Event.handed) ∧
    (∀ handle key, chronicle.owner? handle = some key →
      ∃ history shared, chronicle.histories[key]? = some history ∧
        registry.shared? handle = some shared ∧
        history.flatMap Session.Event.removed ++ shared.session.diagnostics =
          history.flatMap Session.Event.handed ∧
        (shared.session.hasErrors = true ↔
          ∃ diagnostic ∈ shared.session.diagnostics, diagnostic.severity = .error) ∧
        shared.holders = chronicle.holders key ∧
        ∀ request, (∀ other, request.handle? = some other → chronicle.owner? other ≠ some key) →
          (registry.serve request).2.shared? handle = some shared) ∧
    (∀ handle request, request.handle? = some handle →
      (chronicle.owner? handle = none → registry.serve request = (.refused, registry)) ∧
      ((registry.serve request).1 = .refused → chronicle.owner? handle = none)) ∧
    ∀ request handle, (registry.serve request).1 = .given handle →
      handle = chronicle.owners.length := by
  intro chronicle registry
  have accounts : registry.AccountsFor chronicle := accountsFor_run requests
  refine ⟨fun key history written => ?_, fun handle key owner => ?_, fun handle request through =>
    ⟨fun dead => ?_, fun refused => ?_⟩, fun request handle => accounts.given_eq⟩
  · obtain ⟨bound, -⟩ := List.getElem?_eq_some_iff.mp written
    exact (accounts.kept key _ history
      (List.getElem?_eq_getElem (accounts.keys ▸ bound)) written).removed_first_of_handed
  · obtain ⟨history, session, written, live, kept, sound, -⟩ := accounts.live owner
    have shared := shared?_of_kept live kept
    refine ⟨history, _, written, shared, sound.diagnostics, ?_, rfl, fun request elsewhere => ?_⟩
    · simp [Session.hasErrors, Diagnostic.anyError]
    · rw [accounts.shared?_serve owner elsewhere, shared]
  · exact serve_of_dead (accounts.key?_eq_owner? handle ▸ dead) through
  · cases owner : chronicle.owner? handle with
    | none => rfl
    | some key => exact absurd refused (accounts.serve_ne_refused owner through)

/-- One session with two handles and another with one. A warning is taken, an error reported after
that waits, and the session outlives the first of its handles. -/
theorem run_keeps_diagnostics_outliving :
    let warning : Diagnostic := ⟨.warning, ⟨0, 1⟩, "odd"⟩
    let error : Diagnostic := .error ⟨1, 2⟩ "bad"
    let requests : List Request := [.create ⟨256, 4, 8⟩, .create ⟨256, 4, 8⟩, .acquire 0,
      .perform 2 (.report [warning]), .perform 0 .takeDiagnostics, .perform 1 (.report [warning]),
      .perform 2 (.report [error]), .release 0]
    ∃ shared, (run requests).2.shared? 2 = some shared ∧ shared.session.diagnostics = [error] ∧
      shared.session.hasErrors = true ∧ shared.holders = 1 := by
  intro warning error requests
  have told : (run requests).1 = ⟨[[.reported [warning], .taken [warning], .reported [error]],
      [.reported [warning]]], [none, some 1, some 0]⟩ := rfl
  have owner : (run requests).1.owner? 2 = some 0 := by
    rw [told]
    rfl
  obtain ⟨history, shared, written, found, balance, errors, held, -⟩ :=
    (run_keeps_diagnostics requests).2.1 2 0 owner
  rw [told] at written held
  cases written
  have waits : shared.session.diagnostics = [error] := List.append_cancel_left balance
  refine ⟨shared, found, waits, errors.mpr ⟨error, ?_, rfl⟩, held⟩
  rw [waits]
  exact List.mem_singleton_self error

end Registry

end LispReader
