import LispReader.Scanner

/-!
# One token at a time

A feed hands out the tokens of a scanner one by one through a window. The scanner is only asked
again once the window has been drained, so at most one window of tokens is read ahead, and what the
scanner found on the way is handed on with the token that made it look.
-/

namespace LispReader

/-- A scanner together with the tokens it has written and nobody has taken. -/
structure TokenFeed where
  scanner : Scanner
  window : Window Token

/-- A token if there was one, the feed after it, and what was found on the way. -/
structure Delivery where
  token : Option Token
  feed : TokenFeed
  findings : List Finding

namespace TokenFeed

/-- A feed that starts with an empty window over the given storage. -/
def start (scanner : Scanner) (window : Window Token) : TokenFeed := ⟨scanner, window.reset⟩

/-- The feed with a window that holds a token, if any is left. -/
def refill (feed : TokenFeed) : TokenFeed × List Finding :=
  if feed.window.isEmpty then
    let scan := feed.scanner.scan feed.window.reset
    (⟨scan.scanner, scan.window⟩, scan.findings)
  else (feed, [])

/-- The next token, which stays in the feed. -/
def peek (feed : TokenFeed) : Delivery :=
  let (feed, findings) := feed.refill
  ⟨feed.window.front?, feed, findings⟩

/-- The next token, which leaves the feed. There is none after the end of the input. -/
def next (feed : TokenFeed) : Delivery :=
  let (feed, findings) := feed.refill
  match feed.window.pop? with
  | some (token, window) => ⟨some token, { feed with window := window }, findings⟩
  | none => ⟨none, feed, findings⟩

/-! ## Tokens still to come -/

/-- A bound on the tokens that a feed will still hand out. -/
def pending (feed : TokenFeed) : Nat := feed.window.length + feed.scanner.pending

/-- Refilling a window does not add to the tokens still to come. -/
theorem pending_refill (feed : TokenFeed) : feed.refill.1.pending ≤ feed.pending := by
  unfold refill
  split
  · have := Scanner.length_add_pending_scan feed.scanner feed.window.reset
    simp only [Window.length_reset] at this
    simp only [pending]
    omega
  · exact Nat.le_refl _

/-- A token that is handed out is no longer to come. -/
theorem pending_next {feed : TokenFeed} {token : Token} (handed : feed.next.token = some token) :
    feed.next.feed.pending < feed.pending := by
  have bound := pending_refill feed
  unfold next at handed ⊢
  dsimp only at handed ⊢
  split at handed
  · rename_i first window taken
    have shorter := Window.length_pop? taken
    simp only [pending] at bound ⊢
    omega
  · cases handed

end TokenFeed

end LispReader
