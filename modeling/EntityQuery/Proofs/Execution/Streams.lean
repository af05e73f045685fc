import Mathlib.Algebra.Order.Floor.Div
import EntityQuery.Execution.Cursor
import EntityQuery.Proofs.Computation
import EntityQuery.Proofs.Text.Digits

/-!
# Streams of documents

A cursor is asked for one row after the other.  In between, others work with the store, faults are
queued, and the query may be canceled.

* `DocumentStream.run`: a cursor that is polled on a schedule of such turns.
* `Cursor.reached`: the cursor after a number of pages and rows, from which all that a poll depends
  on can be read off; `Cursor.fetchPages_reached` says what one fetch comes to.
* `DocumentStream.poll_reached` and `DocumentStream.run_reached`: one poll, and all of them.
* `documents_streamed`: the rows come in order, each one once, until a request fails or the query
  is canceled.
-/

namespace EntityQuery

/-! ## Schedules

What happens between two polls is not up to the stream: others may work with the store, queue
faults, or cancel the query.  A schedule says for each poll what comes before it. -/

/-- What happens before a row is asked for. -/
structure Turn where
  /-- What others do to the store. -/
  change : MemoryStore → MemoryStore := id
  /-- Whether the query is canceled. -/
  cancels : Bool := false

/-- Others leave the documents of the store as they are. -/
def Turn.KeepsDocuments (t : Turn) : Prop := ∀ s, (t.change s).collections = s.collections

/-- Why a request fails that is struck by a fault or by none, if it fails. -/
def MemoryStore.refusal (s : MemoryStore) (timeout : Nat) (fault : Option Fault) :
    Option ClientError :=
  if timeout < s.latency then some (.timeout timeout)
  else
    match fault with
    | none => none
    | some .connectivity => some (.connectivity "memory" "connection reset by peer")
    | some .authentication => some (.authentication "" "session credentials rejected")
    | some (.statement message) => some (.statement message)
    | some (.delay d) => if timeout < s.latency + d then some (.timeout timeout) else none

/-- What becomes of the next `n` requests, each of which uses up a fault. -/
def MemoryStore.refusals (s : MemoryStore) (timeout n : Nat) : List (Option ClientError) :=
  (List.range n).map fun i => s.refusal timeout s.faults[i]?

/-- A cursor that is polled. -/
structure DocumentStream where
  cursor : Cursor
  store : MemoryStore
  /-- Whether the query is canceled. -/
  canceled : Bool := false

/-- What is seen of one poll. -/
structure Poll where
  answer : Option (Except ClientError Document)
  /-- For each request that has been sent, why it has failed, if it has. -/
  refusals : List (Option ClientError)

/-- What is seen of a poll that comes to nothing. -/
def Poll.nothing : Poll := ⟨none, []⟩

/-- The first `n` answers of what gives some items and then ends. -/
def shown {α : Type} (items : List α) (n : Nat) : List (Option α) := (List.range n).map (items[·]?)

/-- Of `n` pages in front of a request that fails, the number of those that are handed out before
its error. -/
def ExecutionMode.pagesBefore (n : Nat) : ExecutionMode → Nat
  | .streaming => n
  | .buffered => 0

/-- The number of requests that rows take: one at least. -/
def PageRequest.pages (r : PageRequest) (rows : List Document) : Nat :=
  max 1 (rows.length ⌈/⌉ r.pageSize)

namespace DocumentStream

/-- The stream of a request at its beginning. -/
def ofRequest (request : PageRequest) (mode : ExecutionMode) (timeout : Nat) (s : MemoryStore) :
    DocumentStream :=
  { cursor := { request, mode, timeout }, store := s }

/-- The stream after a turn. -/
def turn (d : DocumentStream) (t : Turn) : DocumentStream :=
  { d with store := t.change d.store, canceled := d.canceled || t.cancels }

/-- Asks for a row. -/
def poll (d : DocumentStream) : DocumentStream × Poll :=
  let draw := d.cursor.next d.store d.canceled none
  ({ d with cursor := draw.cursor, store := draw.store },
    ⟨draw.row, d.store.refusals d.cursor.timeout (draw.store.requests - d.store.requests)⟩)

/-- Asks for a row after each of some turns. -/
def run : DocumentStream → List Turn → DocumentStream × List Poll
  | d, [] => (d, [])
  | d, t :: turns =>
    let (d, poll) := (d.turn t).poll
    let (d, polls) := d.run turns
    (d, poll :: polls)

end DocumentStream

lemma shown_nil {α : Type} (n : Nat) : shown ([] : List α) n = List.replicate n none := by
  simp [shown]

lemma shown_cons {α : Type} (a : α) (items : List α) (n : Nat) :
    shown (a :: items) (n + 1) = some a :: shown items n := by
  simp [shown, List.range_succ_eq_map, Function.comp_def]

/-! ## Pages

A token stands for the number of rows behind which the next page begins.  What a request comes to
depends on its token and on the first of the faults that are queued. -/

/-- A number is written in some decimal places. -/
lemma exists_toList_toString (n : Nat) :
    ∃ places, 0 < places ∧ n < 10 ^ places ∧ (toString n).toList = digits 10 places n := by
  have hpos : 0 < (Nat.toDigits 10 n).length := Nat.length_toDigits_pos
  have hfits : n < 10 ^ (Nat.toDigits 10 n).length :=
    (Nat.length_toDigits_le_iff (by decide) hpos).1 le_rfl
  refine ⟨_, hpos, hfits, ?_⟩
  rw [digits_eq_toDigits hpos hfits, Nat.sub_self, List.replicate_zero, List.nil_append,
    Nat.toString_eq_repr, Nat.toList_repr]

/-- **A token is read back**, as long as it stands for a number of 64 bits. -/
lemma offsetOfToken?_toString {n : Nat} (h : n ≤ uint64Max) :
    offsetOfToken? (toString n) = some n := by
  obtain ⟨places, hplaces, hfits, hdigits⟩ := exists_toList_toString n
  have hall : ∀ c ∈ digits 10 places n, c.isDigit = true := fun c => isDigit_of_mem_digits
  have hvalue : (digits 10 places n).foldl (fun n c => n * 10 + (c.toNat - '0'.toNat)) 0 = n :=
    decimalValue_digits hfits
  obtain ⟨c, rest, hcons⟩ := List.exists_cons_of_length_pos
    (show 0 < (digits 10 places n).length by simpa using hplaces)
  have hplus : c ≠ '+' := by
    rintro rfl
    exact absurd (hall '+' (hcons ▸ List.mem_cons_self)) (by decide)
  rw [hcons] at hall hvalue
  have hdigit : (c :: rest).all Char.isDigit = true := List.all_eq_true.2 hall
  simp only [offsetOfToken?, hdigits, hcons]
  split
  · rename_i heq
    cases heq
    exact absurd rfl hplus
  · rw [hdigit, hvalue]
    simp [h]

namespace MemoryStore

variable {s s' : MemoryStore} {timeout : Nat}

lemma refusals_zero (s : MemoryStore) (timeout : Nat) : s.refusals timeout 0 = [] := rfl

/-- Stores of the same documents have the same rows. -/
lemma rows_congr (h : s'.collections = s.collections) (r : PageRequest) :
    s'.rows r = s.rows r := by
  rw [rows, rows, h]

/-- What becomes of the requests behind one that has used up its fault. -/
lemma refusals_succ (hlatency : s'.latency = s.latency) (hfaults : s'.faults = s.faults.tail)
    (n : Nat) :
    s.refusals timeout (n + 1) = s.refusal timeout s.faults[0]? :: s'.refusals timeout n := by
  have hrefusal : s'.refusal = s.refusal := by
    funext timeout fault
    simp only [refusal, hlatency]
  rw [refusals, refusals, List.range_succ_eq_map, List.map_cons, List.map_map, hrefusal, hfaults]
  simp only [Function.comp_def, List.getElem?_tail]

/-- What serving a request comes to for a caller who waits for `timeout` milliseconds: a page,
unless the request is refused. -/
lemma serve_spec (s : MemoryStore) (r : PageRequest) (token : Option String) (timeout : Nat) :
    (s.serve r token timeout).store.collections = s.collections ∧
    (s.serve r token timeout).store.requests = s.requests + 1 ∧
    match s.refusal timeout s.faults[0]? with
    | none => (s.serve r token timeout).answer = some (s.page r token) ∧
        (s.serve r token timeout).store.latency = s.latency ∧
        (s.serve r token timeout).store.faults = s.faults.tail
    | some e => (s.serve r token timeout).answer = some (.error e) ∨
        (s.serve r token timeout).answer = none ∧ e = .timeout timeout := by
  by_cases hlatency : timeout < s.latency
  · simp [serve, refusal, receive, hlatency]
  · rcases hfaults : s.faults with _ | ⟨fault, faults⟩
    · simp [serve, refusal, receive, hlatency, hfaults]
      rfl
    · cases fault with
      | delay d =>
          by_cases hdelay : timeout < s.latency + d
          · simp [serve, refusal, receive, hlatency, hfaults, hdelay]
          · simp [serve, refusal, receive, hlatency, hfaults, hdelay]
            rfl
      | _ => simp [serve, refusal, receive, hlatency, hfaults]

end MemoryStore

/-! ## What a cursor has reached

The state of a cursor is given by two numbers, how many pages have come and how many of their rows
have been asked for.  Each step is stated as what it does to the two, and nothing else of the state
has to be carried along. -/

section Reached

variable {c : Cursor} {rows : List Document} {q d : Nat} {s : MemoryStore}

/-- The cursor when `q` pages of some rows have come, of which `d` rows have been asked for. -/
def Cursor.reached (c : Cursor) (rows : List Document) (q d : Nat) : Cursor :=
  { c with
    buffer := (rows.take (q * c.request.pageSize)).drop d
    token := if q = 0 ∨ c.request.pages rows ≤ q then none
      else some (toString (q * c.request.pageSize))
    exhausted := decide (c.request.pages rows ≤ q)
    failed := false }

/-- Pages that may have come of the rows that a request has in a store, and rows of them that may
have been asked for. -/
structure Cursor.Reaches (c : Cursor) (rows : List Document) (q d : Nat) : Prop where
  pageSize : 0 < c.request.pageSize
  /-- Tokens are numbers of 64 bits. -/
  size : rows.length ≤ uint64Max
  pages : q ≤ c.request.pages rows
  drawn : d ≤ min rows.length (q * c.request.pageSize)

namespace PageRequest

variable {r : PageRequest}

/-- Pages are all that there are if there is one and their rows are all. -/
lemma pages_le_iff (h : 0 < r.pageSize) :
    r.pages rows ≤ q ↔ 0 < q ∧ rows.length ≤ q * r.pageSize := by
  rw [pages, max_le_iff, ceilDiv_le_iff_le_mul h, Nat.mul_comm, Nat.succ_le_iff]

lemma one_le_pages : 1 ≤ r.pages rows := le_max_left _ _

end PageRequest

namespace Cursor

@[simp] lemma request_reached : (c.reached rows q d).request = c.request := rfl

@[simp] lemma timeout_reached : (c.reached rows q d).timeout = c.timeout := rfl

@[simp] lemma mode_reached : (c.reached rows q d).mode = c.mode := rfl

lemma exhausted_reached :
    (c.reached rows q d).exhausted = true ↔ c.request.pages rows ≤ q := decide_eq_true_iff

@[simp] lemma patience_none : c.patience none = c.timeout := rfl

/-- A cursor of which nothing has come. -/
lemma reached_zero (request : PageRequest) (mode : ExecutionMode) (timeout : Nat) :
    reached { request, mode, timeout } rows 0 0 = { request, mode, timeout } := by
  have h : ¬ request.pages rows ≤ 0 := by
    have := @PageRequest.one_le_pages rows request
    omega
  simp [reached, h]

/-- The token that a cursor has reached asks for the next page. -/
lemma page_reached (h : c.Reaches rows q d) (hmore : q < c.request.pages rows)
    (hrows : s.rows c.request = .ok rows) :
    s.page c.request (c.reached rows q d).token =
      .ok (.ofRows rows (q * c.request.pageSize) c.request.pageSize) := by
  have hpages : ¬ c.request.pages rows ≤ q := Nat.not_le.2 hmore
  by_cases hfirst : q = 0
  · subst hfirst
    simp only [MemoryStore.page, reached, true_or, if_true, hrows, Nat.zero_mul]
    rfl
  · have hrest : q * c.request.pageSize < rows.length := by
      have := mt (PageRequest.pages_le_iff h.pageSize).2 hpages
      have hpos := Nat.pos_of_ne_zero hfirst
      grind
    have hoffset := offsetOfToken?_toString (hrest.le.trans h.size)
    simp only [MemoryStore.page, reached, hfirst, hpages, or_self, if_false, hoffset, hrows]
    rfl

/-- The rows behind `d` up to a first and from there up to a second place. -/
lemma drop_take_append {α : Type} {l : List α} {d a b : Nat} (hd : d ≤ min l.length a)
    (hab : a ≤ b) : (l.take a).drop d ++ (l.take b).drop a = (l.take b).drop d := by
  have hsplit : l.take a ++ (l.take b).drop a = l.take b := by
    conv_rhs => rw [← List.take_append_drop a (l.take b), List.take_take, Nat.min_eq_left hab]
  have hlength : d ≤ (l.take a).length := by
    rw [List.length_take]
    omega
  rw [← List.drop_append_of_le_length hlength, hsplit]

/-- **A page more**, whether it is the first, the last or one in between. -/
lemma take_reached (h : c.Reaches rows q d) :
    (c.reached rows q d).take (.ofRows rows (q * c.request.pageSize) c.request.pageSize) =
      c.reached rows (q + 1) d := by
  have hnext : q * c.request.pageSize + max c.request.pageSize 1 =
      (q + 1) * c.request.pageSize := by
    rw [Nat.max_eq_left h.pageSize, Nat.succ_mul]
  have hrows : rows.take (min ((q + 1) * c.request.pageSize) rows.length) =
      rows.take ((q + 1) * c.request.pageSize) := by
    rw [← List.take_take, List.take_length]
  have hbuffer := drop_take_append h.drawn
    (Nat.mul_le_mul_right c.request.pageSize (Nat.le_succ q))
  have hlast : c.request.pages rows ≤ q + 1 ↔ rows.length ≤ (q + 1) * c.request.pageSize := by
    rw [PageRequest.pages_le_iff h.pageSize, and_iff_right (Nat.succ_pos q)]
  simp only [take, Page.ofRows, reached, hnext, hrows, hbuffer]
  by_cases hend : rows.length ≤ (q + 1) * c.request.pageSize
  · simp [hlast.2 hend, hend]
  · simp [mt hlast.1 hend, Nat.min_eq_left (Nat.not_le.1 hend).le, Nat.not_le.1 hend]

lemma Reaches.later {q' : Nat} (h : c.Reaches rows q d) (hle : q ≤ q')
    (hpages : q' ≤ c.request.pages rows) : c.Reaches rows q' d where
  pageSize := h.pageSize
  size := h.size
  pages := hpages
  drawn := by
    have hdrawn := h.drawn
    have hmul := Nat.mul_le_mul_right c.request.pageSize hle
    omega

/-- **One request.**  A page more comes, or the request is refused. -/
lemma receive_reached (h : c.Reaches rows q d) (hmore : q < c.request.pages rows)
    (hrows : s.rows c.request = .ok rows) :
    match s.refusal c.timeout s.faults[0]? with
    | none => (c.reached rows q d).receive none
          (s.serve c.request (c.reached rows q d).token c.timeout).answer =
        .ok (c.reached rows (q + 1) d)
    | some e => (c.reached rows q d).receive none
          (s.serve c.request (c.reached rows q d).token c.timeout).answer = .error e := by
  obtain ⟨-, -, hserve⟩ := s.serve_spec c.request (c.reached rows q d).token c.timeout
  have hpage := page_reached h hmore hrows
  have hpatience : (c.reached rows q d).giveUp none = .timeout c.timeout := by
    simp [giveUp, patience, reached]
  cases hrefusal : s.refusal c.timeout s.faults[0]? with
  | none =>
      rw [hrefusal] at hserve
      simp only [hserve.1, hpage, receive, take_reached h]
  | some e =>
      rw [hrefusal] at hserve
      rcases hserve with hanswer | ⟨hanswer, rfl⟩
      · simp only [hanswer, receive]
      · simp only [hanswer, receive, hpatience]

/-- What a fetch of `n` pages comes to when `q` pages have come: those pages or all that are left,
or the error of the first request that is refused. -/
def Fetched (c : Cursor) (rows : List Document) (q d n : Nat) (s : MemoryStore) :
    MemoryStore × Except ClientError Cursor → Prop
  | (s', .ok c') => s'.collections = s.collections ∧
      ∃ more, q + more = min (q + n) (c.request.pages rows) ∧
        c' = c.reached rows (q + more) d ∧ s'.requests = s.requests + more ∧
        s.refusals c.timeout more = List.replicate more none
  | (s', .error e) => s'.collections = s.collections ∧
      ∃ more < n, q + more < c.request.pages rows ∧ s'.requests = s.requests + (more + 1) ∧
        s.refusals c.timeout (more + 1) = List.replicate more none ++ [some e]

/-- A fetch behind a page that has come. -/
lemma Fetched.cons {s₁ : MemoryStore} {n : Nat} {result : MemoryStore × Except ClientError Cursor}
    (hcollections : s₁.collections = s.collections) (hrequests : s₁.requests = s.requests + 1)
    (hrefusals : ∀ n, s.refusals c.timeout (n + 1) = none :: s₁.refusals c.timeout n)
    (h : Fetched c rows (q + 1) d n s₁ result) : Fetched c rows q d (n + 1) s result := by
  obtain ⟨s', e | c'⟩ := result
  · obtain ⟨hstore, more, hlt, hpages, hcount, hall⟩ := h
    refine ⟨hstore.trans hcollections, more + 1, by omega, by omega, by omega, ?_⟩
    rw [hrefusals, hall, List.replicate_succ, List.cons_append]
  · obtain ⟨hstore, more, hmore, hcursor, hcount, hall⟩ := h
    refine ⟨hstore.trans hcollections, more + 1, by omega, ?_, by omega, ?_⟩
    · rw [hcursor, Nat.add_assoc, Nat.add_comm 1 more]
    · rw [hrefusals, hall, List.replicate_succ]

/-- **One fetch**, page by page. -/
lemma fetchPages_reached (n : Nat) (h : c.Reaches rows q d)
    (hrows : s.rows c.request = .ok rows) :
    Fetched c rows q d n s (fetchPages n (c.reached rows q d) s none) := by
  induction n generalizing q s with
  | zero => exact ⟨rfl, 0, by simpa using h.pages, rfl, rfl, rfl⟩
  | succ n ih =>
      by_cases hend : c.request.pages rows ≤ q
      · rw [fetchPages, if_pos (exhausted_reached.2 hend)]
        refine ⟨rfl, 0, ?_, rfl, rfl, rfl⟩
        have := h.pages
        omega
      · have hmore := Nat.not_le.1 hend
        obtain ⟨hcollections, hrequests, hserve⟩ :=
          s.serve_spec c.request (c.reached rows q d).token c.timeout
        have hreceive := receive_reached h hmore hrows
        rw [fetchPages, if_neg (mt exhausted_reached.1 hend)]
        simp only [request_reached, patience_none, timeout_reached, Option.map_none]
        cases hrefusal : s.refusal c.timeout s.faults[0]? with
        | some e =>
            simp only [hrefusal] at hreceive
            have hone : s.refusals c.timeout 1 = [some e] := by
              simp [MemoryStore.refusals, List.range_succ, hrefusal]
            simp only [hreceive]
            exact ⟨hcollections, 0, Nat.succ_pos n, hmore, hrequests, hone⟩
        | none =>
            simp only [hrefusal] at hreceive hserve
            simp only [hreceive]
            have hrows' := (MemoryStore.rows_congr hcollections c.request).trans hrows
            have hrest := ih (h.later (Nat.le_succ q) hmore) hrows'
            refine hrest.cons hcollections hrequests fun k => ?_
            rw [MemoryStore.refusals_succ hserve.2.1 hserve.2.2, hrefusal]

/-- The last page comes if the pages are awaited that a buffered cursor asks for. -/
lemma pages_le_rowCount (hpage : 0 < c.request.pageSize) (hrows : s.rows c.request = .ok rows) :
    c.request.pages rows ≤ q + (c.rowCount s + 1) := by
  rw [PageRequest.pages_le_iff hpage, rowCount, hrows]
  refine ⟨by omega, ?_⟩
  calc rows.length ≤ (q + (rows.length + 1)) * 1 := by omega
    _ ≤ (q + (rows.length + 1)) * c.request.pageSize := Nat.mul_le_mul_left _ hpage

/-- A fetch is one of the next page or one of all pages that are left. -/
lemma fetch_reached (h : c.Reaches rows q d) (hrows : s.rows c.request = .ok rows) :
    ∃ n, 0 < n ∧ (c.mode = .streaming → n = 1) ∧
      (c.mode = .buffered → c.request.pages rows ≤ q + n) ∧
      Fetched c rows q d n s ((c.reached rows q d).fetch s none) := by
  rw [fetch, mode_reached]
  cases c.mode with
  | streaming => exact ⟨1, Nat.one_pos, fun _ => rfl, nofun, fetchPages_reached 1 h hrows⟩
  | buffered =>
      exact ⟨_, Nat.succ_pos _, nofun, fun _ => pages_le_rowCount h.pageSize hrows,
        fetchPages_reached _ h hrows⟩

/-- A row that has come is drawn. -/
lemma draw_row (hd : d < min rows.length (q * c.request.pageSize)) :
    ∃ row, rows[d]? = some row ∧
      (c.reached rows q d).draw s = ⟨c.reached rows q (d + 1), s, some (.ok row)⟩ := by
  have hlength : d < (rows.take (q * c.request.pageSize)).length := by
    rw [List.length_take]
    omega
  have hbuffer : (c.reached rows q d).buffer =
      rows[d] :: (rows.take (q * c.request.pageSize)).drop (d + 1) := by
    rw [reached, List.drop_eq_getElem_cons hlength, List.getElem_take]
  refine ⟨rows[d], List.getElem?_eq_getElem (by omega), ?_⟩
  rw [draw, hbuffer]
  rfl

lemma buffer_reached :
    (c.reached rows q d).buffer = [] ↔ min rows.length (q * c.request.pageSize) ≤ d := by
  rw [reached, List.drop_eq_nil_iff, List.length_take, Nat.min_comm]

/-- No row is drawn when none is left of those that have come. -/
lemma draw_none (hd : min rows.length (q * c.request.pageSize) ≤ d) :
    (c.reached rows q d).draw s = ⟨c.reached rows q d, s, none⟩ := by
  rw [draw, buffer_reached.2 hd]

/-- No page is asked for while there are rows to draw, or when all pages have come. -/
lemma draws_iff :
    ((c.reached rows q d).exhausted || !(c.reached rows q d).buffer.isEmpty) = true ↔
      d < min rows.length (q * c.request.pageSize) ∨ c.request.pages rows ≤ q := by
  rw [Bool.or_eq_true, exhausted_reached, Bool.not_eq_true', Bool.eq_false_iff, ne_eq,
    List.isEmpty_iff, buffer_reached, Nat.not_le, or_comm]

end Cursor

/-! ## One poll

A poll draws a row that is there, fetches what its mode asks for and draws then, or comes to
nothing. -/

namespace DocumentStream

variable {st : DocumentStream}

/-- A stream of a request for some rows, of which `q` pages have come and `d` rows have been asked
for. -/
structure Reached (c : Cursor) (rows : List Document) (q d : Nat) (st : DocumentStream) : Prop
    extends c.Reaches rows q d where
  cursor : st.cursor = c.reached rows q d
  rows_eq : st.store.rows c.request = .ok rows
  canceled : st.canceled = false

/-- What a poll comes to when `q` pages have come and `d` rows have been asked for. -/
inductive Polled (c : Cursor) (rows : List Document) (q d : Nat) : DocumentStream × Poll → Prop
  /-- The next row comes, perhaps from a new page. -/
  | row {st : DocumentStream} {more : Nat} {row : Document} (hrow : rows[d]? = some row)
      (hbuffered : c.mode = .buffered → more = 0 ∨ q + more = c.request.pages rows)
      (hst : st.Reached c rows (q + more) (d + 1)) :
      Polled c rows q d (st, ⟨some (.ok row), List.replicate more none⟩)
  /-- All rows have come. -/
  | done {st : DocumentStream} {more : Nat} (hd : rows.length ≤ d)
      (hpages : q + more = c.request.pages rows) (hst : st.Reached c rows (q + more) d) :
      Polled c rows q d (st, ⟨none, List.replicate more none⟩)
  /-- A request is refused, when all rows have been asked for that have come. -/
  | refused {st : DocumentStream} {more : Nat} {e : ClientError}
      (hd : d = min rows.length (q * c.request.pageSize))
      (hbefore : c.mode.pagesBefore more = 0) (hpages : q + more < c.request.pages rows)
      (hst : st.cursor.failed = true) :
      Polled c rows q d (st, ⟨some (.error e), List.replicate more none ++ [some e]⟩)

/-- A row is drawn from what has come, or all rows have come. -/
lemma polled_draw {s s' : MemoryStore} (more : Nat) (h : c.Reaches rows (q + more) d)
    (hrows : s'.rows c.request = .ok rows)
    (hmore : d < min rows.length ((q + more) * c.request.pageSize) ∨
      c.request.pages rows ≤ q + more)
    (hbuffered : c.mode = .buffered → more = 0 ∨ q + more = c.request.pages rows)
    (hrequests : s'.requests = s.requests + more)
    (hrefusals : s.refusals c.timeout more = List.replicate more none) :
    let draw := (c.reached rows (q + more) d).draw s'
    Polled c rows q d (⟨draw.cursor, draw.store, false⟩,
      ⟨draw.row, s.refusals c.timeout (draw.store.requests - s.requests)⟩) := by
  have hcount : s'.requests - s.requests = more := by omega
  by_cases hrow : d < min rows.length ((q + more) * c.request.pageSize)
  · obtain ⟨row, hget, hdraw⟩ := @Cursor.draw_row c rows (q + more) d s' hrow
    have hreaches : c.Reaches rows (q + more) (d + 1) := ⟨h.pageSize, h.size, h.pages, hrow⟩
    simp only [hdraw, hcount, hrefusals]
    exact .row hget hbuffered ⟨hreaches, rfl, hrows, rfl⟩
  · have hdraw := @Cursor.draw_none c rows (q + more) d s' (Nat.not_lt.1 hrow)
    have hpages := hmore.resolve_left hrow
    have hall := ((PageRequest.pages_le_iff h.pageSize).1 hpages).2
    simp only [hdraw, hcount, hrefusals]
    exact .done (by omega) (h.pages.antisymm hpages) ⟨h, rfl, hrows, rfl⟩

/-- A new page has a row that has not been asked for, unless it is the only one and empty. -/
lemma lt_or_pages_le {more : Nat} (hpage : 0 < c.request.pageSize)
    (hd : d ≤ q * c.request.pageSize) (hmore : 0 < more) :
    d < min rows.length ((q + more) * c.request.pageSize) ∨ c.request.pages rows ≤ q + more := by
  by_cases hall : rows.length ≤ (q + more) * c.request.pageSize
  · exact .inr ((PageRequest.pages_le_iff hpage).2 ⟨by omega, hall⟩)
  · have hlt : q * c.request.pageSize < (q + more) * c.request.pageSize :=
      Nat.mul_lt_mul_of_pos_right (by omega) hpage
    exact .inl (by omega)

/-- **One poll.** -/
theorem poll_reached (h : st.Reached c rows q d) : Polled c rows q d st.poll := by
  obtain ⟨cursor, s, canceled⟩ := st
  obtain ⟨hreaches, hcursor, hrows, hcanceled⟩ := h
  simp only at hcursor hrows hcanceled
  subst hcursor hcanceled
  have hfailed : (c.reached rows q d).failed = false := rfl
  have hdrawn := hreaches.drawn
  simp only [poll, Cursor.next, hfailed, Bool.false_eq_true, if_false, Cursor.timeout_reached,
    Cursor.draws_iff]
  split
  · rename_i hhere
    exact polled_draw 0 hreaches hrows hhere (fun _ => .inl rfl) rfl rfl
  · rename_i hfetch
    obtain ⟨hdone, hpages⟩ := not_or.1 hfetch
    obtain ⟨n, hn, hstreaming, hbuffered, hfetched⟩ := Cursor.fetch_reached hreaches hrows
    rcases hresult : (c.reached rows q d).fetch s none with ⟨s', e | c'⟩
    · rw [hresult] at hfetched
      obtain ⟨-, more, hlt, hless, hrequests, hrefusals⟩ := hfetched
      have hcount : s'.requests - s.requests = more + 1 := by omega
      have hbefore : c.mode.pagesBefore more = 0 := by
        cases hmode : c.mode with
        | streaming =>
            have := hstreaming hmode
            simp only [ExecutionMode.pagesBefore]
            omega
        | buffered => rfl
      simp only [Cursor.fail, hcount, hrefusals]
      exact .refused (by omega) hbefore hless rfl
    · rw [hresult] at hfetched
      obtain ⟨hcollections, more, hmore, rfl, hrequests, hrefusals⟩ := hfetched
      have hrows' := (MemoryStore.rows_congr hcollections c.request).trans hrows
      have hall : c.mode = .buffered → more = 0 ∨ q + more = c.request.pages rows := fun hmode =>
        .inr (hmore.trans (Nat.min_eq_right (hbuffered hmode)))
      exact polled_draw more (hreaches.later (by omega) (by omega)) hrows'
        (lt_or_pages_le hreaches.pageSize (by omega) (by omega)) hall hrequests hrefusals

/-- After the last row a poll comes to nothing. -/
lemma poll_done (h : st.Reached c rows (c.request.pages rows) d) (hd : rows.length ≤ d) :
    st.poll = (st, .nothing) := by
  obtain ⟨cursor, s, canceled⟩ := st
  obtain ⟨-, hcursor, -, hcanceled⟩ := h
  simp only at hcursor hcanceled
  subst hcursor hcanceled
  have hfailed : (c.reached rows (c.request.pages rows) d).failed = false := rfl
  have hnone := (Nat.min_le_left rows.length (c.request.pages rows * c.request.pageSize)).trans hd
  simp only [poll, Cursor.next, hfailed, Bool.false_eq_true, if_false, Cursor.draws_iff, le_refl,
    or_true, if_true, Cursor.draw_none hnone, Nat.sub_self, MemoryStore.refusals_zero, Poll.nothing]

/-- After an error a poll comes to nothing. -/
lemma poll_failed (h : st.cursor.failed = true) : st.poll = (st, .nothing) := by
  simp only [poll, Cursor.next, h, if_true, Nat.sub_self, MemoryStore.refusals_zero, Poll.nothing]

/-! ## All polls

The induction is on the schedule.  It starts from any state that a cursor can have reached, as the
state behind the first poll is such a one again. -/

/-- Polls come to nothing if each of them leaves the stream in a state in which they do. -/
lemma run_nothing (quiet : DocumentStream → Prop) {turns : List Turn}
    (hquiet : ∀ st, quiet st → ∀ t ∈ turns,
      quiet (st.turn t) ∧ (st.turn t).poll = (st.turn t, .nothing)) (h : quiet st) :
    (st.run turns).2 = List.replicate turns.length .nothing := by
  induction turns generalizing st with
  | nil => rfl
  | cons t turns ih =>
      obtain ⟨hturn, hpoll⟩ := hquiet st h t List.mem_cons_self
      have hrest := ih (fun st h t ht => hquiet st h t (List.mem_cons_of_mem _ ht)) hturn
      simp only [run, hpoll, hrest, List.length_cons, List.replicate_succ]

/-- After an error there is nothing, whatever happens. -/
lemma run_failed (h : st.cursor.failed = true) (turns : List Turn) :
    (st.run turns).2 = List.replicate turns.length .nothing := by
  refine run_nothing (fun st => st.cursor.failed = true) (fun st h t _ => ?_) h
  have hturn : (st.turn t).cursor.failed = true := h
  exact ⟨hturn, poll_failed hturn⟩

/-- The stream after a turn that leaves the documents and does not cancel the query. -/
lemma Reached.turn (h : st.Reached c rows q d) {t : Turn} (hkeeps : t.KeepsDocuments)
    (hcancels : t.cancels = false) : (st.turn t).Reached c rows q d where
  toReaches := h.toReaches
  cursor := h.cursor
  rows_eq := (MemoryStore.rows_congr (hkeeps st.store) c.request).trans h.rows_eq
  canceled := by rw [DocumentStream.turn, h.canceled, hcancels, Bool.or_self]

/-- After the last row there is nothing, as long as the query is not canceled. -/
lemma run_done (h : st.Reached c rows (c.request.pages rows) d) (hd : rows.length ≤ d)
    {turns : List Turn} (hturns : ∀ t ∈ turns, t.KeepsDocuments ∧ t.cancels = false) :
    (st.run turns).2 = List.replicate turns.length .nothing := by
  refine run_nothing (Reached c rows (c.request.pages rows) d) (fun st h t ht => ?_) h
  have hturn := h.turn (hturns t ht).1 (hturns t ht).2
  exact ⟨hturn, poll_done hturn hd⟩

lemma answers_nothing (n : Nat) :
    (List.replicate n Poll.nothing).map Poll.answer = List.replicate n none := List.map_replicate

lemma refusals_nothing (n : Nat) :
    (List.replicate n Poll.nothing).flatMap Poll.refusals = [] := by
  simp [Poll.nothing]

/-- What is seen of `n` polls without cancellation, when `q` pages have come and `d` rows have been
asked for. -/
inductive Seen (c : Cursor) (rows : List Document) (q d n : Nat) (polls : List Poll) : Prop
  /-- No request is refused. -/
  | rows (more : Nat) (hanswers : polls.map Poll.answer = shown ((rows.drop d).map .ok) n)
      (hrefusals : polls.flatMap Poll.refusals = List.replicate more none)
      (hall : rows.length < d + n → q + more = c.request.pages rows)
  /-- A request is refused. -/
  | refused (more : Nat) (e : ClientError) (hpages : q + more < c.request.pages rows)
      (hanswers : polls.map Poll.answer =
        shown (((rows.take ((q + c.mode.pagesBefore more) * c.request.pageSize)).drop d).map .ok ++
          [.error e]) n)
      (hrefusals : polls.flatMap Poll.refusals = List.replicate more none ++ [some e])

/-- What is seen when a row comes first. -/
lemma Seen.behind {n more : Nat} {row : Document} {polls : List Poll}
    (h : Seen c rows (q + more) (d + 1) n polls) (hrow : rows[d]? = some row)
    (hbuffered : c.mode = .buffered → more = 0 ∨ q + more = c.request.pages rows)
    (hd : d + 1 ≤ min rows.length ((q + more) * c.request.pageSize)) :
    Seen c rows q d (n + 1) (⟨some (.ok row), List.replicate more none⟩ :: polls) := by
  obtain ⟨hlt, rfl⟩ := List.getElem?_eq_some_iff.1 hrow
  rcases h with ⟨more', hanswers, hrefusals, hall⟩ | ⟨more', e, hpages, hanswers, hrefusals⟩
  · refine .rows (more + more') ?_ ?_ fun hn => ?_
    · rw [List.map_cons, hanswers, List.drop_eq_getElem_cons hlt, List.map_cons, shown_cons]
    · rw [List.flatMap_cons, hrefusals, List.replicate_append_replicate]
    · rw [← Nat.add_assoc]
      exact hall (by omega)
  · -- a buffered cursor that has drawn a row has all pages, so no request is left to be refused
    have hbefore : q + c.mode.pagesBefore (more + more') =
        q + more + c.mode.pagesBefore more' := by
      cases hmode : c.mode with
      | streaming => exact (Nat.add_assoc q more more').symm
      | buffered => rcases hbuffered hmode with rfl | hpages' <;> [rfl; omega]
    have hlength : d < (rows.take ((q + more + c.mode.pagesBefore more') *
        c.request.pageSize)).length := by
      have := Nat.mul_le_mul_right c.request.pageSize
        (Nat.le_add_right (q + more) (c.mode.pagesBefore more'))
      rw [List.length_take]
      omega
    refine .refused (more + more') e (by omega) ?_ ?_
    · rw [List.map_cons, hanswers, hbefore, List.drop_eq_getElem_cons hlength, List.getElem_take,
        List.map_cons, List.cons_append, shown_cons]
    · rw [List.flatMap_cons, hrefusals, ← List.append_assoc, List.replicate_append_replicate]

/-- **All polls**, one by one. -/
theorem run_reached (h : st.Reached c rows q d) {turns : List Turn}
    (hturns : ∀ t ∈ turns, t.KeepsDocuments ∧ t.cancels = false) :
    Seen c rows q d turns.length (st.run turns).2 := by
  induction turns generalizing st q d with
  | nil =>
      have hdrawn := h.drawn
      exact .rows 0 rfl rfl fun hall => by simp only [List.length_nil] at hall; omega
  | cons t turns ih =>
      obtain ⟨ht, hturns⟩ := List.forall_mem_cons.1 hturns
      have hpoll := poll_reached (h.turn ht.1 ht.2)
      simp only [run]
      rcases hresult : (st.turn t).poll with ⟨st', poll⟩
      rw [hresult] at hpoll
      cases hpoll with
      | row hrow hbuffered hst => exact (ih hst hturns).behind hrow hbuffered hst.drawn
      | @done _ more hd hpages hst =>
          rw [hpages] at hst
          have hrest : rows.drop d = [] := List.drop_eq_nil_iff.2 hd
          refine .rows more ?_ ?_ fun _ => hpages
          · rw [run_done hst hd hturns, List.map_cons, answers_nothing, hrest, List.map_nil,
              shown_nil, List.length_cons, List.replicate_succ]
          · rw [run_done hst hd hturns, List.flatMap_cons, refusals_nothing, List.append_nil]
      | @refused _ more e hd hbefore hpages hst =>
          have hrest : (rows.take (q * c.request.pageSize)).drop d = [] := by
            rw [List.drop_eq_nil_iff, List.length_take]
            omega
          refine .refused more e hpages ?_ ?_
          · rw [run_failed hst, List.map_cons, answers_nothing, hbefore, Nat.add_zero, hrest,
              List.map_nil, List.nil_append, List.length_cons, shown_cons, shown_nil]
          · rw [run_failed hst, List.flatMap_cons, refusals_nothing, List.append_nil]

end DocumentStream

end Reached

/-! ## Cancellation

A schedule is split at the first turn that cancels the query.  Before it nothing is known to the
stream, and the poll behind it answers that the query has been canceled. -/

namespace Cursor

variable {c c' : Cursor} {s : MemoryStore}

/-- Pages that come are no failure of their cursor. -/
lemma failed_fetchPages {n : Nat} {wait : Option Nat} (h : (fetchPages n c s wait).2 = .ok c') :
    c'.failed = c.failed := by
  induction n generalizing c s wait with
  | zero => cases h; rfl
  | succ n ih =>
      rw [fetchPages] at h
      split at h
      · cases h; rfl
      · simp only at h
        split at h
        · cases h
        · rename_i hreceive
          rw [ih h]
          unfold receive at hreceive
          split at hreceive <;> cases hreceive
          rfl

lemma failed_fetch (h : (c.fetch s none).2 = .ok c') : c'.failed = c.failed := by
  rw [fetch] at h
  split at h <;> exact failed_fetchPages h

lemma failed_draw : (c.draw s).cursor.failed = c.failed := by
  rw [draw]
  split <;> rfl

/-- A cursor that gives a row has not failed. -/
lemma failed_next {canceled : Bool} {row : Document}
    (h : (c.next s canceled none).row = some (.ok row)) :
    (c.next s canceled none).cursor.failed = false := by
  rw [next] at h ⊢
  split at h
  · cases h
  · rename_i hfailed
    have hfailed' := Bool.eq_false_iff.2 hfailed
    split at h
    · cases h
    · rename_i hcanceled
      rw [if_neg hfailed, if_neg hcanceled]
      split at h
      · rename_i hdraws
        rw [if_pos hdraws, failed_draw, hfailed']
      · rename_i hdraws
        rw [if_neg hdraws]
        rcases hfetch : c.fetch s none with ⟨s', e | c'⟩
        · rw [hfetch] at h
          cases h
        · have hpages : (c.fetch s none).2 = .ok c' := by rw [hfetch]
          rw [failed_draw, failed_fetch hpages, hfailed']

end Cursor

namespace DocumentStream

variable {st : DocumentStream}

/-- Polls on one schedule and then on another. -/
lemma run_append (before after : List Turn) (st : DocumentStream) :
    (st.run (before ++ after)).2 = (st.run before).2 ++ ((st.run before).1.run after).2 := by
  induction before generalizing st with
  | nil => rfl
  | cons t before ih => simp only [List.cons_append, run, ih]

lemma length_run (turns : List Turn) (st : DocumentStream) :
    (st.run turns).2.length = turns.length := by
  induction turns generalizing st with
  | nil => rfl
  | cons t turns ih => simp only [run, List.length_cons, ih]

/-- A stream that has given nothing but rows has not failed. -/
lemma failed_run (h : st.cursor.failed = false) {turns : List Turn}
    (hrows : ∀ poll ∈ (st.run turns).2, ∃ row, poll.answer = some (.ok row)) :
    (st.run turns).1.cursor.failed = false := by
  induction turns generalizing st with
  | nil => exact h
  | cons t turns ih =>
      obtain ⟨⟨row, hrow⟩, hrows⟩ := List.forall_mem_cons.1 hrows
      exact ih (Cursor.failed_next hrow) hrows

/-- A poll after the query has been canceled. -/
lemma poll_canceled (h : st.cursor.failed = false) (hcanceled : st.canceled = true) :
    st.poll = ({ st with cursor := { st.cursor with failed := true } },
      ⟨some (.error .canceled), []⟩) := by
  simp only [poll, Cursor.next, h, hcanceled, Bool.false_eq_true, if_false, if_true, Cursor.fail,
    Nat.sub_self, MemoryStore.refusals_zero]

/-- Polls from a turn on that cancels the query. -/
lemma run_canceled (h : st.cursor.failed = false) {t : Turn} (ht : t.cancels = true)
    (turns : List Turn) :
    (st.run (t :: turns)).2 =
      ⟨some (.error .canceled), []⟩ :: List.replicate turns.length .nothing := by
  have hcanceled : (st.turn t).canceled = true := by rw [turn, ht, Bool.or_true]
  have hturn : (st.turn t).cursor.failed = false := h
  simp only [run, poll_canceled hturn hcanceled]
  rw [run_failed rfl]

end DocumentStream

/-- **The stream of the documents of a request**, on any schedule on which the documents of the
store stay as they are; a token can stand for all of their rows.  If no request is refused, and the
query is not canceled, all rows come in order, each one once, from as many pages as they take.  If a
request is refused, its error comes behind the rows of the pages before it, or without them if all
pages are awaited first; and if the query is canceled, the next answer says so.  After an error
nothing is answered or requested. -/
theorem documents_streamed {request : PageRequest} {mode : ExecutionMode} {timeout : Nat}
    {s : MemoryStore} {rows : List Document} {turns : List Turn}
    (hrows : s.rows request = .ok rows) (hsize : rows.length ≤ uint64Max)
    (hpage : 0 < request.pageSize) (hturns : ∀ t ∈ turns, t.KeepsDocuments) :
    let polls := ((DocumentStream.ofRequest request mode timeout s).run turns).2
    let answers := polls.map Poll.answer
    let refusals := polls.flatMap Poll.refusals
    ((∀ t ∈ turns, t.cancels = false) → (∀ r ∈ refusals, r = none) →
      answers = shown (rows.map .ok) turns.length ∧
      (rows.length < turns.length → refusals.length = request.pages rows)) ∧
    ((∀ t ∈ turns, t.cancels = false) → ∀ k e, refusals[k]? = some (some e) →
      refusals.length = k + 1 ∧
      answers = shown ((rows.take (mode.pagesBefore k * request.pageSize)).map .ok ++ [.error e])
        turns.length) ∧
    ∀ before t after, turns = before ++ t :: after → t.cancels = true →
      (∀ poll ∈ polls.take before.length, ∃ row, poll.answer = some (.ok row)) →
      polls = polls.take before.length ++
        ⟨some (.error .canceled), []⟩ :: List.replicate after.length .nothing := by
  intro polls answers refusals
  have hseen (hcancels : ∀ t ∈ turns, t.cancels = false) :
      DocumentStream.Seen { request, mode, timeout } rows 0 0 turns.length polls := by
    refine DocumentStream.run_reached ⟨⟨hpage, hsize, Nat.zero_le _, Nat.zero_le _⟩, ?_, hrows, rfl⟩
      fun t ht => ⟨hturns t ht, hcancels t ht⟩
    exact (Cursor.reached_zero request mode timeout).symm
  refine ⟨fun hcancels hnone => ?_, fun hcancels k e hk => ?_, ?_⟩
  · rcases hseen hcancels with ⟨more, hanswers, hrefusals, hall⟩ | ⟨more, e, -, -, hrefusals⟩
    · refine ⟨hanswers, fun hlong => ?_⟩
      calc refusals.length = more := (congrArg List.length hrefusals).trans List.length_replicate
        _ = request.pages rows := (Nat.zero_add more).symm.trans (hall (by omega))
    · have hmem : some e ∈ refusals := by
        change refusals = _ at hrefusals
        rw [hrefusals]
        exact List.mem_append_right _ (List.mem_singleton_self _)
      cases hnone _ hmem
  · rcases hseen hcancels with ⟨more, -, hrefusals, -⟩ | ⟨more, e', -, hanswers, hrefusals⟩
    · change refusals = _ at hrefusals
      rw [hrefusals] at hk
      cases List.eq_of_mem_replicate (List.mem_of_getElem? hk)
    · change refusals = _ at hrefusals
      obtain ⟨rfl, rfl⟩ : k = more ∧ e = e' := by
        rw [hrefusals] at hk
        grind
      refine ⟨?_, ?_⟩
      · rw [hrefusals, List.length_append, List.length_replicate, List.length_singleton]
      · simpa only [Nat.zero_add, List.drop_zero] using hanswers
  · rintro before t after rfl ht hbefore
    have hpolls : polls = _ ++ _ := DocumentStream.run_append before (t :: after) _
    have htake : polls.take before.length =
        ((DocumentStream.ofRequest request mode timeout s).run before).2 := by
      rw [hpolls, List.take_left' (DocumentStream.length_run before _)]
    rw [htake] at hbefore
    rw [htake, hpolls, DocumentStream.run_canceled (DocumentStream.failed_run rfl hbefore) ht after]

namespace Sample

/-- Some letters. -/
def letters : List Document := [.string "a", .string "b", .string "c"]

/-- A store that keeps them. -/
def letterStore : MemoryStore := MemoryStore.empty.insert ⟨"app", "_default", "letter"⟩ letters

/-- A request for them, two a page. -/
def letterRequest : PageRequest :=
  ⟨.select (.keyspace ⟨"app", "_default", "letter"⟩ "l") [] (.all "l"), [], 2⟩

/-- What is seen of a stream of the letters. -/
def letterPolls (mode : ExecutionMode) (turns : List Turn) : List Poll :=
  ((DocumentStream.ofRequest letterRequest mode 1000 letterStore).run turns).2

/-- The connection breaks at the next request. -/
def breaking : Turn := { change := (·.inject .connectivity) }

end Sample

/-- The three letters come from two pages; when the connection breaks at the second one, two of them
come in front of the error; and when the query is canceled behind the first one, no other comes. -/
theorem documents_streamed_letters :
    Sample.letterStore.rows Sample.letterRequest = .ok Sample.letters ∧
    Sample.breaking.KeepsDocuments ∧
    ((Sample.letterPolls .streaming (List.replicate 4 {})).map Poll.answer =
        shown (Sample.letters.map .ok) 4 ∧
      ((Sample.letterPolls .streaming (List.replicate 4 {})).flatMap Poll.refusals).length = 2) ∧
    (Sample.letterPolls .streaming [{}, {}, Sample.breaking, {}]).map Poll.answer =
      shown ([.ok (.string "a"), .ok (.string "b"),
        .error (.connectivity "memory" "connection reset by peer")]) 4 ∧
    (Sample.letterPolls .buffered [Sample.breaking, {}]).map Poll.answer =
      shown [.error (.connectivity "memory" "connection reset by peer")] 2 ∧
    Sample.letterPolls .buffered [{}, { cancels := true }, {}] =
      [⟨some (.ok (.string "a")), [none, none]⟩, ⟨some (.error .canceled), []⟩, .nothing] := by
  have hrows : Sample.letterStore.rows Sample.letterRequest = .ok Sample.letters := rfl
  have hsize : Sample.letters.length ≤ uint64Max := by decide
  have hpage : 0 < Sample.letterRequest.pageSize := by decide
  have hbreaking : Sample.breaking.KeepsDocuments := fun _ => rfl
  have hplain (cancels : Bool) : Turn.KeepsDocuments { cancels } := fun _ => rfl
  refine ⟨hrows, hbreaking, ?_, ?_, ?_, ?_⟩
  · obtain ⟨hanswers, hcount⟩ := (@documents_streamed _ .streaming 1000 _ _ (List.replicate 4 {})
      hrows hsize hpage (by simpa using hplain false)).1 (by simp) (by decide)
    exact ⟨hanswers, (hcount (by decide)).trans (by decide)⟩
  · exact ((@documents_streamed _ .streaming 1000 _ _ [{}, {}, Sample.breaking, {}] hrows hsize
      hpage (by simp [hplain, hbreaking])).2.1 (by decide) 1 _ rfl).2
  · exact ((@documents_streamed _ .buffered 1000 _ _ [Sample.breaking, {}] hrows hsize
      hpage (by simp [hplain, hbreaking])).2.1 (by decide) 0 _ rfl).2
  · exact (@documents_streamed _ .buffered 1000 _ _ [{}, { cancels := true }, {}] hrows hsize
      hpage (by simp [hplain])).2.2 [{}] _ [{}] rfl rfl
      (List.forall_mem_singleton.2 ⟨_, rfl⟩)

end EntityQuery
