/-
# Fetching in pages

Experiences are fetched page by page until a page is not full.  Nothing in the loop itself bounds
the number of its pages: that it ends, and that no experience is lost or fetched twice on the way,
rests on the offsets being multiples of a limit that the service never cuts down.  The main result
is `fetch_complete`, for any service that answers each request for a page after a number of
failures that the retrier makes up for (`ShowsPages`).  The simulated service is one
(`showsPages_shows`).
-/
import Mathlib
import Punter.Episode.Fetch
import Punter.Proofs.Resilience.Attempts
import Punter.Proofs.Simulation.Records
import Punter.Random.Generator

namespace Punter

variable {σ α : Type} [Service σ α]

/-- The page of a session's experiences that the service has for a request. -/
def pageOf (xs : List (Experience α)) (limit offset : Nat) : List (Experience α) :=
  (xs.drop offset).take (min limit Call.maxPage)

/-- A service that shows the experiences `xs` of a session in pages.  `Failed n` are its states
after `n` failures in a row.  From each of them it answers the next request for a page, or fails
once more in a way after which the request may be made again; it does not fail more often in a row
than the retrier allows for.  When and how it fails is otherwise left open. -/
structure ShowsPages (r : Retrier) (session : SessionId) (xs : List (Experience α))
    (Failed : Nat → σ → Prop) : Prop where
  answer : ∀ {n : Nat} {s : σ} (limit offset : Nat) (now : Duration), Failed n s →
    (∃ s', Service.answer (.page session limit offset) now s = (.ok (pageOf xs limit offset), s') ∧
        Failed 0 s') ∨
      ∃ e s', Service.answer (.page session limit offset : Call α) now s = (.error e, s') ∧
        r.classifier.isRetryable e = true ∧ n < r.backoff.maxRetries ∧ Failed (n + 1) s'

/-! ## The simulated service -/

namespace Simulation.State

variable {γ α : Type} [Scalar α] [Chance γ α] {r : Retrier} {session : SessionId}
  {xs : List (Experience α)}

/-- After `n` failures in a row the simulated service holds a session with the experiences `xs`,
and as many failures are queued for pages as the retrier still makes up for. -/
structure Shows (r : Retrier) (session : SessionId) (xs : List (Experience α)) (n : Nat)
    (s : State γ α) : Prop where
  held : ∃ h, s.find? session = some h
  records : s.records.of session = xs
  retryable : ∀ e ∈ s.failures.of .page, r.classifier.isRetryable e = true
  spared : n + (s.failures.of .page).length ≤ r.backoff.maxRetries

omit [Scalar α] [Chance γ α] in
lemma Shows.page_eq {n : Nat} {s : State γ α} (hs : Shows r session xs n s)
    (limit offset : Nat) : s.page session limit offset = .ok (pageOf xs limit offset) := by
  obtain ⟨h, found⟩ := hs.held
  simp only [page, found, pageOf, hs.records]

/-- The simulated service shows the experiences of its sessions in pages. -/
theorem showsPages_shows (r : Retrier) (session : SessionId) (xs : List (Experience α)) :
    ShowsPages r session xs (Shows r session xs : Nat → State γ α → Prop) where
  answer := by
    intro n s limit offset now hs
    cases hq : s.failures.of .page with
    | nil =>
      refine Or.inl ⟨s.count .page, ?_, hs.held, hs.records, ?_, ?_⟩
      · change s.answer (.page session limit offset) now = _
        rw [answer_of_nil rfl hq]
        exact Prod.ext (hs.page_eq limit offset) rfl
      · simp [count, hq]
      · simp [count, hq]
    | cons e es =>
      have hretryable := hs.retryable
      have hspared := hs.spared
      rw [hq] at hretryable hspared
      rw [List.length_cons] at hspared
      refine Or.inr ⟨e, (s.count .page).queue .page es, answer_of_cons rfl hq now,
        hretryable e (List.mem_cons_self ..), by omega, hs.held, hs.records, ?_, ?_⟩
      · simpa [count, queue] using fun e' he' => hretryable e' (List.mem_cons_of_mem _ he')
      · simp only [count, queue, PerCall.of_set, if_true]
        omega

end Simulation.State

/-! ## The loop -/

namespace Exchange

/-- The request, where an exchange is a request for a page that was answered. -/
def answeredPage : Exchange α → Option (SessionId × Nat × Nat)
  | ⟨_, .page session limit offset, .ok _⟩ => some (session, limit, offset)
  | _ => none

/-- The request, where an exchange is a request for a page. -/
def requestedPage : Exchange α → Option (SessionId × Nat × Nat)
  | ⟨_, .page session limit offset, _⟩ => some (session, limit, offset)
  | _ => none

end Exchange

namespace Stepper

open Simulation (Operation State)
open Simulation.State (Shows showsPages_shows)

lemma pageLimit_pos (pageSize : Nat) : 0 < pageLimit pageSize := by
  simp [pageLimit, Call.maxPage]

lemma pageLimit_le (pageSize : Nat) : pageLimit pageSize ≤ Call.maxPage :=
  min_le_right _ _

section Page

variable {s : Stepper} {session : SessionId} {xs : List (Experience α)}
  {Failed : Nat → σ → Prop}

/-- What becomes of a request for a page: the page, after exchanges for this page of which only
the last one is answered. -/
def Fetches (session : SessionId) (xs : List (Experience α)) (Failed : Nat → σ → Prop)
    (limit offset : Nat) (w : World σ α)
    (result : Except ServiceError (List (Experience α)) × World σ α) : Prop :=
  ∃ es w', result = (.ok (pageOf xs limit offset), w') ∧ Failed 0 w'.service ∧
    w'.history = w.history ++ es ∧
    (∀ e ∈ es, e.requestedPage = some (session, limit, offset)) ∧
    es.filterMap Exchange.answeredPage = [(session, limit, offset)]

lemma attempts_page_of_ok {limit offset left attempt : Nat} {w : World σ α} {s' : σ}
    (hs' : Service.answer (.page session limit offset) w.clock w.service =
      (.ok (pageOf xs limit offset), s')) (hfailed : Failed 0 s') :
    Fetches session xs Failed limit offset w
      (s.retrier.attempts World.sleep (World.ask (.page session limit offset)) left attempt w) := by
  have hask := World.ask_of_answer hs'
  exact ⟨[_], _, Retrier.attempts_of_ok hask, hfailed, World.history_exchanged _ _ _,
    by simp [Exchange.requestedPage], by simp [Exchange.answeredPage]⟩

/-- A request for a page is answered in the end.  The induction is on the retries that are left;
they never run out, because the failures in a row count against the same number. -/
lemma attempts_page (shows : ShowsPages s.retrier session xs Failed) (limit offset : Nat)
    {left attempt n : Nat} (hleft : n + left = s.retrier.backoff.maxRetries) {w : World σ α}
    (hw : Failed n w.service) :
    Fetches session xs Failed limit offset w
      (s.retrier.attempts World.sleep (World.ask (.page session limit offset)) left attempt w) := by
  induction left generalizing attempt n w with
  | zero =>
    rcases shows.answer limit offset w.clock hw with ⟨s', hs', hfailed⟩ | ⟨e, s', -, -, hn, -⟩
    · exact attempts_page_of_ok hs' hfailed
    · omega
  | succ left ih =>
    rcases shows.answer limit offset w.clock hw with ⟨s', hs', hfailed⟩ | ⟨e, s', hs', he, -, hn⟩
    · exact attempts_page_of_ok hs' hfailed
    · have hask := World.ask_of_answer hs'
      let x : Exchange α := ⟨w.clock, .page session limit offset, .error e⟩
      let w₁ := (w.exchanged x s').sleep (s.retrier.backoff.delay attempt)
      have hrest : Fetches session xs Failed limit offset w₁
          (s.retrier.attempts World.sleep (World.ask (.page session limit offset)) left
            (Number.next32 attempt) w₁) := ih (n := n + 1) (by omega) hn
      obtain ⟨es, w', hrun, hfailed, hhistory, hrequested, hanswered⟩ := hrest
      refine ⟨x :: es, w', ?_, hfailed, ?_, ?_, ?_⟩
      · rw [Retrier.attempts_succ hask he, hrun]
      · rw [hhistory, World.history_sleep, World.history_exchanged, List.append_assoc]
        rfl
      · simpa [x, Exchange.requestedPage] using hrequested
      · rw [List.filterMap_cons_none rfl]
        exact hanswered

lemma call_page (shows : ShowsPages s.retrier session xs Failed) (limit offset : Nat)
    {w : World σ α} (hw : Failed 0 w.service) :
    Fetches session xs Failed limit offset w (s.call (.page session limit offset) w) :=
  attempts_page shows limit offset (Nat.zero_add _) hw

lemma length_pageOf (xs : List (Experience α)) {limit : Nat} (hle : limit ≤ Call.maxPage)
    (offset : Nat) : (pageOf xs limit offset).length = min limit (xs.length - offset) := by
  simp [pageOf, min_eq_left hle]

/-- What was fetched before a page, with the page. -/
lemma take_append_pageOf (xs : List (Experience α)) {limit : Nat} (hle : limit ≤ Call.maxPage)
    (offset : Nat) : xs.take offset ++ pageOf xs limit offset = xs.take (offset + limit) := by
  rw [pageOf, min_eq_left hle, List.take_add]

/-- Before the last page no offset reaches the largest one. -/
lemma offset_le {n limit k : Nat} (hn : n < UInt32.size) (hk : k < n / limit) :
    k * limit + limit ≤ Call.maxOffset := by
  have hle : (k + 1) * limit ≤ n :=
    (Nat.mul_le_mul_right limit hk).trans (Nat.div_mul_le_self n limit)
  rw [Nat.succ_mul] at hle
  exact hle.trans (Nat.le_sub_one_of_lt hn)

/-- The pages from page `k` on, of which `full` are full.  The induction is on these; the loop ends
if it is followed for more pages than that, no matter for how many. -/
lemma fetchFrom_pages (shows : ShowsPages s.retrier session xs Failed)
    (hxs : xs.length < UInt32.size) {limit : Nat} (hpos : 0 < limit) (hle : limit ≤ Call.maxPage)
    (full : Nat) {k : Nat} (hk : k + full = xs.length / limit) {w : World σ α}
    (hw : Failed 0 w.service) :
    ∃ es w', (∀ pages, full < pages →
        s.fetchFrom session limit pages (k * limit) (xs.take (k * limit)) w =
          (some (.ok xs), w')) ∧
      w'.history = w.history ++ es ∧
      (∀ e ∈ es, ∃ offset, e.requestedPage = some (session, limit, offset)) ∧
      es.filterMap Exchange.answeredPage =
        (List.range' k (full + 1)).map fun i => (session, limit, i * limit) := by
  induction full generalizing k w with
  | zero =>
    obtain ⟨es, w', hcall, -, hhistory, hrequested, hanswered⟩ :=
      call_page shows limit (k * limit) hw
    -- fewer records are left than a page holds
    have hlast : xs.length < k * limit + limit := by
      rw [← Nat.succ_mul, ← Nat.div_lt_iff_lt_mul hpos]
      omega
    have hshort : (pageOf xs limit (k * limit)).length < limit := by
      rw [length_pageOf xs hle]
      omega
    refine ⟨es, w', ?_, hhistory, fun e he => ⟨_, hrequested e he⟩, by simpa using hanswered⟩
    intro pages hpages
    obtain ⟨pages, rfl⟩ := Nat.exists_eq_succ_of_ne_zero hpages.ne'
    simp only [fetchFrom, hcall, hshort, if_true]
    rw [take_append_pageOf xs hle, List.take_of_length_le hlast.le]
  | succ full ih =>
    obtain ⟨es, w₁, hcall, hfailed, hhistory, hrequested, hanswered⟩ :=
      call_page shows limit (k * limit) hw
    have hnext : k * limit + limit ≤ xs.length := by
      rw [← Nat.succ_mul]
      exact (Nat.mul_le_mul_right limit (by omega)).trans (Nat.div_mul_le_self _ _)
    have hfull : ¬ (pageOf xs limit (k * limit)).length < limit := by
      rw [length_pageOf xs hle]
      omega
    have hoffset : min (k * limit + limit) Call.maxOffset = (k + 1) * limit := by
      rw [min_eq_left (offset_le hxs (by omega)), Nat.succ_mul]
    obtain ⟨es', w₂, hrest, hhistory', hrequested', hanswered'⟩ :=
      ih (k := k + 1) (by omega) hfailed
    refine ⟨es ++ es', w₂, ?_, ?_, ?_, ?_⟩
    · intro pages hpages
      obtain ⟨pages, rfl⟩ := Nat.exists_eq_succ_of_ne_zero (Nat.ne_zero_of_lt hpages)
      simp only [fetchFrom, hcall, hfull, if_false]
      rw [hoffset, take_append_pageOf xs hle, ← Nat.succ_mul]
      exact hrest pages (Nat.lt_of_succ_lt_succ hpages)
    · rw [hhistory', hhistory, List.append_assoc]
    · intro e he
      rcases List.mem_append.mp he with he | he
      · exact ⟨_, hrequested e he⟩
      · exact hrequested' e he
    · rw [List.filterMap_append, hanswered, hanswered']
      rfl

end Page

/-- **Pages.**  Take a service that shows fewer than `2 ^ 32` experiences of a session in pages,
whatever failures it makes in between, as long as the retrier makes up for them.  Then all of them
are fetched, in their order.  The requests that are answered are those of the pages 0, 1, 2, … up
to the first that is not full, each with the same limit and at a multiple of it; no offset is cut
off at the largest one on the way, and with the page that is not full the loop ends by itself: it
does the same however much further it is followed. -/
theorem fetch_complete (s : Stepper) (session : SessionId) (xs : List (Experience α))
    (Failed : Nat → σ → Prop) (shows : ShowsPages s.retrier session xs Failed)
    (hxs : xs.length < UInt32.size) (pageSize : Nat) (w : World σ α) (hw : Failed 0 w.service) :
    let limit := min (max pageSize 1) 10000
    let last := xs.length / limit
    ∃ es w', (∀ horizon, last < horizon →
        s.fetch session pageSize horizon w = (some (.ok xs), w')) ∧
      w'.history = w.history ++ es ∧
      (∀ e ∈ es, ∃ offset, e.requestedPage = some (session, limit, offset)) ∧
      es.filterMap Exchange.answeredPage =
        (List.range (last + 1)).map (fun i => (session, limit, i * limit)) ∧
      ∀ i < last, i * limit + limit ≤ Call.maxOffset := by
  intro limit last
  have hpos : 0 < limit := pageLimit_pos pageSize
  have hle : limit ≤ Call.maxPage := pageLimit_le pageSize
  obtain ⟨es, w', hfrom, hhistory, hrequested, hanswered⟩ :=
    fetchFrom_pages shows hxs hpos hle last (k := 0) (Nat.zero_add _) hw
  simp only [Nat.zero_mul, List.take_zero] at hfrom
  rw [← List.range_eq_range'] at hanswered
  exact ⟨es, w', hfrom, hhistory, hrequested, hanswered, fun i hi => offset_le hxs hi⟩

/-- Two resets before the first of two pages: three experiences, of two bets and a cash-out that
does not fit, come in pages of two. -/
theorem fetch_complete_three :
    let id : SessionId := ⟨0⟩
    let bet : Operation ℚ := .call (.play id ⟨⟨.placeBet, some ⟨5, .usd⟩⟩, 1⟩) .zero
    let cashOut : Operation ℚ := .call (.play id ⟨⟨.cashOut, none⟩, 1⟩) .zero
    let service : State Generator ℚ :=
      (State.new .standard .counting (.ofSeed 7)).run
        [.call (.create .nil ⟨"cautious", none⟩) .zero, bet, bet, cashOut,
          .inject .page [.transport "reset", .transport "reset"]]
    let xs := service.records.of id
    let stepper : Stepper := ⟨.standard, .instant⟩
    (xs.length = 3 ∧ Shows stepper.retrier id xs 0 service) ∧
      ∃ es w', stepper.fetch id 2 2 (World.start service) = (some (.ok xs), w') ∧
        w'.history = es ∧
        es.filterMap Exchange.answeredPage = [(id, 2, 0), (id, 2, 2)] := by
  intro id bet cashOut service xs stepper
  have hlength : xs.length = 3 := by decide +kernel
  have hshows : Shows stepper.retrier id xs 0 service := by
    have hfound : (service.find? id).isSome = true := by decide +kernel
    exact ⟨Option.isSome_iff_exists.mp hfound, rfl, by decide +kernel, by decide +kernel⟩
  obtain ⟨es, w', hfetch, hhistory, -, hanswered, -⟩ :=
    fetch_complete stepper id xs _ (showsPages_shows stepper.retrier id xs)
      (by rw [hlength]; decide) 2 (World.start service) hshows
  refine ⟨⟨hlength, hshows⟩, es, w', hfetch 2 (by rw [hlength]; decide), hhistory, ?_⟩
  rw [hanswered, hlength]
  rfl

end Stepper

end Punter
