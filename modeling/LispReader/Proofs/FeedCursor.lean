import LispReader.Proofs.FeedTokens
import LispReader.Proofs.ScanCalls

/-!
# How far a feed reads ahead

A feed is a cursor in the tokens of its source. In whatever order it is asked to show a token or to
hand one out, both give the token at the cursor, and only handing it out moves the cursor; at the end
there is nothing to give. What has been scanned behind the cursor are whole batches, as many as it
takes to reach the furthest token that was asked for, and the findings are those of the tokens in
these batches.
-/

namespace LispReader

namespace TokenFeed

/-! ## Whole batches -/

/-- The number of tokens in the batches of `size` that it takes to reach `count` tokens. -/
def inBatches (size count : Nat) : Nat := (count + size - 1) / size * size

/-- As many whole batches as reach a number of tokens, and not one too many, are those it takes. -/
theorem inBatches_eq {size count whole : Nat} (enough : count ≤ whole * size)
    (tight : whole * size < count + size) : inBatches size count = whole * size := by
  have quotient : (count + size - 1) / size = whole := by
    refine Nat.div_eq_of_lt_le (by omega) ?_
    rw [Nat.succ_mul]
    omega
  rw [inBatches, quotient]

/-- Whole batches reach the number of tokens, and the last of them is needed. -/
theorem exists_inBatches {size : Nat} (positive : 0 < size) (count : Nat) :
    ∃ whole, inBatches size count = whole * size ∧ count ≤ whole * size ∧
      whole * size < count + size := by
  have parts := Nat.div_add_mod (count + size - 1) size
  have rest := Nat.mod_lt (count + size - 1) positive
  rw [Nat.mul_comm] at parts
  exact ⟨(count + size - 1) / size, rfl, by omega, by omega⟩

/-- No batch reaches no token. -/
theorem inBatches_zero {size : Nat} (positive : 0 < size) : inBatches size 0 = 0 := by
  have empty : inBatches size 0 = 0 * size := inBatches_eq (Nat.zero_le _) (by omega)
  rw [empty, Nat.zero_mul]

/-- Batches that reach past some tokens need no other for the next. -/
theorem inBatches_succ_of_lt {size count reached : Nat} (positive : 0 < size)
    (past : count < inBatches size reached) (near : reached ≤ count + 1) :
    inBatches size (count + 1) = inBatches size reached := by
  obtain ⟨whole, same, enough, tight⟩ := exists_inBatches positive reached
  rw [same] at past ⊢
  exact inBatches_eq past (by omega)

/-- Batches that are used up need another for the next token. -/
theorem inBatches_succ_of_eq {size count : Nat} (positive : 0 < size)
    (used : inBatches size count = count) : inBatches size (count + 1) = count + size := by
  obtain ⟨whole, same, -, -⟩ := exists_inBatches positive count
  have next : (whole + 1) * size = count + size := by
    rw [Nat.succ_mul, ← same, used]
  rw [← next]
  exact inBatches_eq (by omega) (by omega)

/-! ## Demands -/

/-- What a feed can be asked for: to show the next token, or to hand it out. -/
inductive Demand where
  | peek
  | next
  deriving DecidableEq

/-- Which token is the furthest that some demands ask for; the first that has not been handed out
counts as one. -/
def Demand.reach : List Demand → Nat
  | [] => 0
  | .peek :: demands => max 1 (reach demands)
  | .next :: demands => reach demands + 1

/-- Does what a demand asks for. -/
def meet (feed : TokenFeed) : Demand → Delivery
  | .peek => feed.peek
  | .next => feed.next

/-- What a row of demands leaves behind: the feed, and the findings made on the way. -/
structure DemandLog where
  feed : TokenFeed
  findings : List Finding

/-- Meets demands one after the other. -/
def meetAll (feed : TokenFeed) : List Demand → DemandLog
  | [] => ⟨feed, []⟩
  | demand :: demands =>
    let delivery := feed.meet demand
    let log := delivery.feed.meetAll demands
    ⟨log.feed, delivery.findings ++ log.findings⟩

/-! ## Refilling -/

/-- A window with live tokens is not refilled. -/
theorem refill_of_live {feed : TokenFeed} (live : feed.window.toList ≠ []) :
    feed.refill = (feed, []) := by
  unfold refill
  split
  · rename_i empty
    refine absurd (List.eq_nil_of_length_eq_zero ?_) live
    rw [Window.length_toList, Window.length, beq_iff_eq.mp empty, Nat.sub_self]
  · rfl

/-- A drained window is refilled by a scan. -/
theorem refill_of_drained {feed : TokenFeed} {scan : Scan} (drained : feed.window.toList = [])
    (scanned : feed.scanner.scan feed.window.reset = scan) :
    feed.refill = (⟨scan.scanner, scan.window⟩, scan.findings) := by
  have length := congrArg List.length drained
  have order := feed.window.start_le_stop
  rw [Window.length_toList, Window.length, List.length_nil] at length
  have empty : feed.window.isEmpty = true := beq_iff_eq.mpr (by omega)
  rw [refill, if_pos empty, scanned]

/-- A feed that has just been refilled stays as it is. -/
theorem refill_refill (feed : TokenFeed) : feed.refill.1.refill = (feed.refill.1, []) := by
  by_cases drained : feed.window.toList = []
  · by_cases scanning : feed.scanner.phase = .scanning
    · by_cases full : feed.window.reset.room = 0
      · have nothing := Scanner.scan_of_full scanning full
        rw [refill_of_drained drained nothing]
        exact @refill_of_drained ⟨feed.scanner, feed.window.reset⟩ _ rfl nothing
      · -- There are slots and tokens, so that some token waits after the scan.
        rw [refill_of_drained drained rfl]
        refine refill_of_live ?_
        rw [(Scanner.takes_scan _ _).toList, Window.toList_reset, List.nil_append, ne_eq,
          List.map_eq_nil_iff, List.take_eq_nil_iff, Scanner.upcoming_eq_nil]
        exact not_or_intro full (absurd scanning)
    · have nothing := Scanner.scan_of_ended scanning feed.window.reset
      rw [refill_of_drained drained nothing]
      exact @refill_of_drained ⟨{ feed.scanner with phase := .exhausted }, feed.window.reset⟩ _
        rfl rfl
  · rw [refill_of_live drained]
    exact refill_of_live drained

/-- Showing a token refills the window and leaves it at that. -/
theorem peek_eq (feed : TokenFeed) :
    feed.peek = ⟨feed.refill.1.window.toList.head?, feed.refill.1, feed.refill.2⟩ := by
  rw [← Window.front?_eq_head?]
  rfl

/-- Handing out a token refills the window and takes the token from its front. -/
theorem next_spec (feed : TokenFeed) :
    feed.next.token = feed.refill.1.window.toList.head? ∧
      feed.next.findings = feed.refill.2 ∧
      feed.next.feed.scanner = feed.refill.1.scanner ∧
      feed.next.feed.window.toList = feed.refill.1.window.toList.tail ∧
      feed.next.feed.window.capacity = feed.refill.1.window.capacity := by
  unfold next
  cases taken : feed.refill.1.window.pop? with
  | none =>
    have nothing : feed.refill.1.window.toList = [] := by
      rw [← List.head?_eq_none_iff, ← Window.front?_eq_head?, Window.front?_eq_pop?, taken]
      rfl
    simp only [taken, nothing, List.head?_nil, List.tail_nil, and_self]
  | some pair =>
    simp only [taken, Window.toList_pop? taken, List.head?_cons, List.tail_cons, true_and]
    exact Window.capacity_pop? taken

/-- Showing a token gives what handing it out gives, and moves nothing: handing out a token
afterwards is as if none had been shown. -/
theorem next_of_peek (feed : TokenFeed) :
    feed.peek.token = feed.next.token ∧ feed.peek.findings = feed.next.findings ∧
      feed.peek.feed.next = { feed.next with findings := [] } := by
  obtain ⟨token, findings, -⟩ := next_spec feed
  rw [peek_eq, token, findings]
  refine ⟨rfl, rfl, ?_⟩
  simp only [next, refill_refill]
  split
  · rfl
  · rfl

/-! ## The cursor -/

/-- A feed of `source` with a window of `size` slots whose scanner has written the first `scanned`
tokens, of which `handed` have been handed out. -/
structure Stands (feed : TokenFeed) (source : List UInt8) (size handed scanned : Nat) : Prop where
  capacity : feed.window.capacity = size
  waiting : feed.window.toList = ((Scanner.tokens source).take scanned).drop handed
  upcoming : feed.scanner.upcoming = (Scanner.cut 0 source).drop scanned
  position : feed.scanner.position = Token.stopAfter 0 ((Scanner.tokens source).take scanned)

/-- The findings of the first `count` tokens of a source. -/
def findingsOf (source : List UInt8) (count : Nat) : List Finding :=
  ((Scanner.cut 0 source).take count).flatMap ReportedToken.findings

/-- A feed starts before the first token. -/
theorem stands_start (source : List UInt8) (window : Window Token) :
    (start (.start source) window).Stands source window.capacity 0 0 :=
  ⟨rfl, rfl, rfl, rfl⟩

/-- A drained window gains the next batch. -/
theorem Stands.refill_of_drained {feed : TokenFeed} {source : List UInt8} {size handed scanned : Nat}
    (stands : feed.Stands source size handed scanned) (drained : feed.window.toList = [])
    (spent : handed = scanned ∨
      (Scanner.tokens source).length ≤ handed ∧ (Scanner.tokens source).length ≤ scanned) :
    feed.refill.1.Stands source size handed (scanned + size) ∧
      findingsOf source scanned ++ feed.refill.2 = findingsOf source (scanned + size) := by
  have takes := Scanner.takes_scan feed.scanner feed.window.reset
  have writes := Scanner.writes_scan feed.scanner feed.window.reset
  have room : feed.window.reset.room = size := stands.capacity
  have written : (feed.scanner.upcoming.take size).map ReportedToken.token =
      ((Scanner.tokens source).drop scanned).take size := by
    rw [stands.upcoming, List.map_take, List.map_drop, Scanner.tokens_eq_cut]
  rw [TokenFeed.refill_of_drained drained rfl]
  refine ⟨⟨takes.capacity.trans stands.capacity, ?_, ?_, ?_⟩, ?_⟩
  · rw [takes.toList, room, written, Window.toList_reset, List.nil_append]
    rcases spent with rfl | ⟨all_handed, all_scanned⟩
    · rw [List.drop_take, Nat.add_sub_cancel_left]
    · have all : (((Scanner.tokens source).take (scanned + size)).length) ≤ handed :=
        Nat.le_trans (List.length_take_le' _ _) all_handed
      rw [List.drop_of_length_le all_scanned, List.take_nil, List.drop_of_length_le all]
  · rw [takes.upcoming, room, stands.upcoming, List.drop_drop]
  · rw [writes.position, room, written, stands.position, ← Token.stopAfter_append, ← List.take_add]
  · rw [takes.findings, room, stands.upcoming, findingsOf, findingsOf, ← List.flatMap_append,
      ← List.take_add]

/-- More tokens than there are have not been scanned, whatever their number. -/
theorem Stands.of_length_le {feed : TokenFeed} {source : List UInt8}
    {size handed scanned scanned' : Nat} (stands : feed.Stands source size handed scanned)
    (all : (Scanner.tokens source).length ≤ scanned)
    (all' : (Scanner.tokens source).length ≤ scanned') :
    feed.Stands source size handed scanned' ∧
      findingsOf source scanned = findingsOf source scanned' := by
  obtain ⟨capacity, waiting, upcoming, position⟩ := stands
  have length : (Scanner.cut 0 source).length = (Scanner.tokens source).length := by
    rw [Scanner.tokens_eq_cut, List.length_map]
  rw [List.take_of_length_le all] at waiting position
  rw [List.drop_of_length_le (by omega)] at upcoming
  refine ⟨⟨capacity, ?_, ?_, ?_⟩, ?_⟩
  · rw [waiting, List.take_of_length_le all']
  · rw [upcoming, List.drop_of_length_le (by omega)]
  · rw [position, List.take_of_length_le all']
  · rw [findingsOf, findingsOf, List.take_of_length_le (by omega), List.take_of_length_le (by omega)]

/-- No more tokens have been scanned than there are. -/
theorem Stands.capped {feed : TokenFeed} {source : List UInt8} {size handed scanned : Nat}
    (stands : feed.Stands source size handed scanned) :
    feed.Stands source size handed (min (Scanner.tokens source).length scanned) ∧
      findingsOf source scanned = findingsOf source (min (Scanner.tokens source).length scanned) := by
  rcases Nat.le_total (Scanner.tokens source).length scanned with all | some_left
  · rw [Nat.min_eq_left all]
    exact stands.of_length_le all (Nat.le_refl _)
  · rw [Nat.min_eq_right some_left]
    exact ⟨stands, rfl⟩

/-- A feed that is asked for its next token has scanned as many batches as it takes to reach that
token, and made the findings of the tokens in them. -/
theorem Stands.refill {feed : TokenFeed} {source : List UInt8} {size handed reached : Nat}
    (positive : 0 < size) (stands : feed.Stands source size handed (inBatches size reached))
    (least : handed ≤ reached) (most : reached ≤ handed + 1) :
    feed.refill.1.Stands source size handed (inBatches size (handed + 1)) ∧
      findingsOf source (inBatches size reached) ++ feed.refill.2 =
        findingsOf source (inBatches size (handed + 1)) := by
  obtain ⟨whole, batches, enough, -⟩ := exists_inBatches positive reached
  by_cases past : handed < inBatches size reached
  · rw [inBatches_succ_of_lt positive past most]
    by_cases live : feed.window.toList = []
    · -- All tokens have been handed out, so that the scan finds nothing more.
      have all : (Scanner.tokens source).length ≤ handed := by
        have nothing := live
        rw [stands.waiting, List.drop_eq_nil_iff, List.length_take] at nothing
        omega
      have all' : (Scanner.tokens source).length ≤ inBatches size reached := by omega
      obtain ⟨further, found⟩ := stands.refill_of_drained live (.inr ⟨all, all'⟩)
      obtain ⟨same, findings⟩ := further.of_length_le (Nat.le_add_right_of_le all') all'
      exact ⟨same, found.trans findings⟩
    · rw [refill_of_live live]
      exact ⟨stands, List.append_nil _⟩
  · have used : handed = inBatches size reached := by omega
    have caught : reached = handed := by omega
    subst caught
    rw [inBatches_succ_of_eq positive used.symm]
    rw [← used] at stands ⊢
    have drained : feed.window.toList = [] := by
      rw [stands.waiting, List.drop_eq_nil_iff]
      exact List.length_take_le _ _
    exact stands.refill_of_drained drained (.inl rfl)

/-- The token at the cursor is the first that waits. -/
theorem Stands.head? {feed : TokenFeed} {source : List UInt8} {size handed scanned : Nat}
    (stands : feed.Stands source size handed scanned) (past : handed < scanned) :
    feed.window.toList.head? = (Scanner.tokens source)[handed]? := by
  rw [stands.waiting, List.head?_drop, List.getElem?_take_of_lt past]

/-- A demand gives the token at the cursor, which a token handed out moves by one. -/
theorem Stands.meet {feed : TokenFeed} {source : List UInt8} {size handed reached : Nat}
    (positive : 0 < size) (stands : feed.Stands source size handed (inBatches size reached))
    (least : handed ≤ reached) (most : reached ≤ handed + 1) (demand : Demand) :
    (feed.meet demand).token = (Scanner.tokens source)[handed]? ∧
      (feed.meet demand).feed.Stands source size (handed + [demand].count .next)
        (inBatches size (handed + 1)) ∧
      findingsOf source (inBatches size reached) ++ (feed.meet demand).findings =
        findingsOf source (inBatches size (handed + 1)) := by
  obtain ⟨ready, found⟩ := stands.refill positive least most
  obtain ⟨whole, batches, enough, -⟩ := exists_inBatches positive (handed + 1)
  have first := ready.head? (by omega)
  cases demand with
  | peek =>
    rw [TokenFeed.meet, peek_eq]
    exact ⟨first, ready, found⟩
  | next =>
    obtain ⟨token, findings, scanner, rest, capacity⟩ := next_spec feed
    rw [TokenFeed.meet, token, findings]
    refine ⟨first, ⟨capacity.trans ready.capacity, ?_, ?_, ?_⟩, found⟩
    · rw [rest, ready.waiting, List.tail_drop]
      rfl
    · rw [scanner, ready.upcoming]
    · rw [scanner, ready.position]

/-- Demands move the cursor by the tokens that they hand out, and what has been scanned reaches the
furthest token that was asked for before or by them. -/
theorem Stands.meetAll {feed : TokenFeed} {source : List UInt8} {size handed reached : Nat}
    (positive : 0 < size) (stands : feed.Stands source size handed (inBatches size reached))
    (least : handed ≤ reached) (most : reached ≤ handed + 1) (demands : List Demand) :
    let log := feed.meetAll demands
    let furthest := max reached (handed + Demand.reach demands)
    log.feed.Stands source size (handed + demands.count .next) (inBatches size furthest) ∧
      findingsOf source (inBatches size reached) ++ log.findings =
        findingsOf source (inBatches size furthest) ∧
      handed + demands.count .next ≤ furthest ∧ furthest ≤ handed + demands.count .next + 1 := by
  induction demands generalizing feed handed reached with
  | nil =>
    intro log furthest
    have same : furthest = reached := Nat.max_eq_left least
    rw [same]
    exact ⟨stands, List.append_nil _, least, most⟩
  | cons demand demands ih =>
    intro log furthest
    obtain ⟨-, after, found⟩ := stands.meet positive least most demand
    have counted : (demand :: demands).count .next =
        [demand].count .next + demands.count .next := by
      rw [← List.count_append, List.singleton_append]
    have moved : [demand].count .next ≤ 1 := List.count_le_length
    obtain ⟨done, found', least', most'⟩ := ih after (by omega) (by omega)
    have same : max (handed + 1) (handed + [demand].count .next + Demand.reach demands) =
        furthest := by
      cases demand with
      | peek =>
        change max (handed + 1) (handed + 0 + Demand.reach demands) =
          max reached (handed + max 1 (Demand.reach demands))
        omega
      | next =>
        change max (handed + 1) (handed + 1 + Demand.reach demands) =
          max reached (handed + (Demand.reach demands + 1))
        omega
    rw [counted, ← Nat.add_assoc]
    rw [same] at done found' least' most'
    refine ⟨done, ?_, least', most'⟩
    rw [← found', ← found, List.append_assoc]
    rfl

/-- From the start of a source, demands move the cursor by the tokens that they hand out, and the
batches that reach the furthest token they ask for have been scanned. -/
theorem stands_meetAll_start (source : List UInt8) {window : Window Token}
    (slots : 0 < window.capacity) (demands : List Demand) :
    let log := (start (.start source) window).meetAll demands
    log.feed.Stands source window.capacity (demands.count .next)
        (inBatches window.capacity (Demand.reach demands)) ∧
      log.findings = findingsOf source (inBatches window.capacity (Demand.reach demands)) ∧
      demands.count .next ≤ Demand.reach demands ∧
      Demand.reach demands ≤ demands.count .next + 1 := by
  have started : (start (.start source) window).Stands source window.capacity 0
      (inBatches window.capacity 0) := by
    rw [inBatches_zero slots]
    exact stands_start source window
  have met := started.meetAll slots (Nat.le_refl 0) (Nat.zero_le 1) demands
  simp only [Nat.zero_add, Nat.zero_max, inBatches_zero slots] at met
  exact met

/-- The token at the cursor is the one that is handed out next. -/
theorem token_next_meetAll (source : List UInt8) {window : Window Token}
    (slots : 0 < window.capacity) (demands : List Demand) :
    ((start (.start source) window).meetAll demands).feed.next.token =
      (Scanner.tokens source)[demands.count .next]? := by
  obtain ⟨stands, -, least, most⟩ := stands_meetAll_start source slots demands
  exact (stands.meet slots least most .next).1

/-- Once the end of the input stands before the cursor, every token does. -/
theorem length_le_of_endOfInput {source : List UInt8} {index : Nat} {token : Token}
    (listed : (Scanner.tokens source)[index]? = some token) (ending : token.kind = .endOfInput) :
    (Scanner.tokens source).length ≤ index + 1 := by
  obtain ⟨front, same, inner⟩ := Scanner.tokens_eq_append_endOfInput source
  rw [same] at listed ⊢
  rw [List.length_append, List.length_singleton]
  by_cases earlier : index < front.length
  · rw [List.getElem?_append_left earlier] at listed
    exact absurd ending (inner token (List.mem_of_getElem? listed))
  · omega

/-- Whatever has been asked of a feed, it gives the token of the source at the cursor, whether it is
to show it or to hand it out; a token that is shown stays, and after the end of the input there is
none. What it has scanned are whole batches of tokens, as many as it takes to reach the furthest
token that was asked for: of these the ones that have not been handed out wait in its window, its
scanner stands behind the last of them and goes on with the next one, and what has been found is what
a scan of the whole source finds about them. -/
theorem meetAll_reads_ahead (source : List UInt8) (window : Window Token)
    (slots : 0 < window.capacity) (demands : List Demand) :
    let tokens := Scanner.tokens source
    let whole := (Scanner.start source).scan (.blank (source.length + 1))
    let feed := start (.start source) window
    let log := feed.meetAll demands
    let handed := demands.count .next
    let scanned := min tokens.length (inBatches window.capacity (Demand.reach demands))
    log.feed.next.token = tokens[handed]? ∧
      log.feed.peek.token = log.feed.next.token ∧
      log.feed.peek.findings = log.feed.next.findings ∧
      log.feed.peek.feed.next = { log.feed.next with findings := [] } ∧
      (∀ earlier later, demands = earlier ++ .next :: later →
        (feed.meetAll earlier).feed.next.token = some (.endOfInput source.length) →
        log.feed.peek.token = none ∧ log.feed.next.token = none) ∧
      log.feed.window.toList = (tokens.take scanned).drop handed ∧
      (∀ more, (log.feed.scanner.scan more).appended more =
        (tokens.drop scanned).take more.room) ∧
      log.feed.scanner.position = Token.stopAfter 0 (tokens.take scanned) ∧
      log.findings = whole.findings.take ((tokens.take scanned).countP (·.kind = .error)) ∧
      log.findings.map Finding.span =
        ((tokens.take scanned).filter (·.kind = .error)).map Token.span := by
  intro tokens whole feed log handed scanned
  obtain ⟨uncapped, findings, -, -⟩ := stands_meetAll_start source slots demands
  obtain ⟨stands, capped⟩ := uncapped.capped
  have answer := token_next_meetAll source slots
  obtain ⟨shown, found, unmoved⟩ := next_of_peek log.feed
  have written : tokens.take scanned =
      ((Scanner.cut 0 source).take scanned).map ReportedToken.token := by
    rw [List.map_take, ← Scanner.tokens_eq_cut]
  have left : tokens.drop scanned = log.feed.scanner.upcoming.map ReportedToken.token := by
    rw [stands.upcoming, List.map_drop, ← Scanner.tokens_eq_cut]
  have made : log.findings =
      ((Scanner.cut 0 source).take scanned).flatMap ReportedToken.findings :=
    findings.trans capped
  refine ⟨answer demands, shown, found, unmoved, ?_, stands.waiting, ?_, stands.position, ?_, ?_⟩
  · rintro earlier later parts ending
    have passed : handed = earlier.count .next + 1 + later.count .next := by
      rw [show handed = demands.count .next from rfl, parts, List.count_append, List.count_cons_self]
      omega
    rw [answer earlier] at ending
    have all := length_le_of_endOfInput ending rfl
    have nothing : log.feed.next.token = none := by
      rw [answer demands, List.getElem?_eq_none_iff]
      omega
    exact ⟨shown.trans nothing, nothing⟩
  · intro more
    rw [(Scanner.takes_scan _ _).appended, left, List.map_take]
  · rw [made, Scanner.flatMap_findings_take, written, Scanner.findings_scan_blank]
  · rw [made, written]
    exact Scanner.span_flatMap_findings _ fun _ member => List.mem_of_mem_take member

/-- A list of nothing, read through a window of two slots: after its first token has been shown and
two have been handed out, one batch has been scanned and nothing waits; when the end is shown the
second batch has been, and after it has been handed out there is none. -/
theorem meetAll_reads_ahead_empty_list :
    let source : List UInt8 := [Byte.leftParen, Byte.rightParen]
    let window : Window Token := ⟨#[⟨.error, ⟨7, 9⟩⟩, .blank], 1, 2, by decide, by decide⟩
    let feed := start (.start source) window
    let two := feed.meetAll [.peek, .next, .next]
    let done := feed.meetAll [.peek, .next, .next, .peek, .next]
    0 < window.capacity ∧ two.feed.next.token = some (.endOfInput 2) ∧
      two.feed.window.toList = [] ∧ two.feed.scanner.position = 2 ∧
      two.feed.peek.token = some (.endOfInput 2) ∧
      done.feed.next.token = none ∧ done.feed.peek.token = none := by
  intro source window
  dsimp only
  have slots : 0 < window.capacity := by decide
  have listed : Scanner.tokens source =
      [⟨.leftParen, ⟨0, 1⟩⟩, ⟨.rightParen, ⟨1, 2⟩⟩, .endOfInput 2] := by
    rw [Scanner.tokens_eq_cut, Scanner.cut_leftParen, Scanner.cut_rightParen, Scanner.cut_nil]
    rfl
  obtain ⟨token, shown, -, -, -, waiting, -, position, -⟩ :=
    meetAll_reads_ahead source window slots [.peek, .next, .next]
  obtain ⟨token', -⟩ := meetAll_reads_ahead source window slots [.peek, .next, .next, .peek]
  obtain ⟨-, -, -, -, ends, -⟩ :=
    meetAll_reads_ahead source window slots [.peek, .next, .next, .peek, .next]
  rw [listed] at token token' waiting position
  obtain ⟨unshown, ended⟩ := ends [.peek, .next, .next, .peek] [] rfl token'
  exact ⟨slots, token, waiting.trans (by decide), position.trans (by decide), shown.trans token,
    ended, unshown⟩

end TokenFeed

end LispReader
