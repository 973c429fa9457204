/-
# Fetching experiences

The experiences of a session are fetched page by page until a page is not full or cannot be got.
Nothing else ends the loop, and a service may have full pages for ever.  So the loop is followed for
a number of pages, and if it has not ended by then, there is no outcome: `none` stands for the loop
going on.  The number changes nothing else (`Stepper.fetchFrom_of_le`).
-/
import Punter.Episode.Step

namespace Punter.Stepper

variable {σ α : Type} [Service σ α]

/-- The size of the pages that are asked for. -/
def pageLimit (pageSize : Nat) : Nat := min (max pageSize 1) Call.maxPage

/-- Fetches pages from an offset on, and follows the loop for a number of pages.  `sofar` are the
experiences of the pages before. -/
def fetchFrom (s : Stepper) (session : SessionId) (limit : Nat) :
    Nat → Nat → List (Experience α) → World σ α →
      Option (Except ServiceError (List (Experience α))) × World σ α
  | 0, _, _, w => (none, w)
  | pages + 1, offset, sofar, w =>
    match s.call (.page session limit offset) w with
    | (.error e, w) => (some (.error e), w)
    | (.ok page, w) =>
      if page.length < limit then (some (.ok (sofar ++ page)), w)
      else
        fetchFrom s session limit pages (min (offset + limit) Call.maxOffset) (sofar ++ page) w

/-- Fetches all experiences of a session, and follows this for a number of pages. -/
def fetch (s : Stepper) (session : SessionId) (pageSize horizon : Nat) (w : World σ α) :
    Option (Except ServiceError (List (Experience α))) × World σ α :=
  s.fetchFrom session (pageLimit pageSize) horizon 0 [] w

end Punter.Stepper
