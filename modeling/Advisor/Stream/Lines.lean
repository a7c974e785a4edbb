import Advisor.Failure
import Advisor.Text.Utf8

namespace Advisor.Stream

/-! A stream of bytes as lines. A line feed ends a line; bytes after the last one wait for more. -/

def lineFeed : UInt8 := 10

def carriageReturn : UInt8 := 13

def decodeLine (bytes : List UInt8) : String :=
  Text.Utf8.decode (if bytes.getLast? = some carriageReturn then bytes.dropLast else bytes)

def pushChunk (waiting chunk : List UInt8) : List String × List UInt8 :=
  let parts := (waiting ++ chunk).splitOnP (· == lineFeed)
  (parts.dropLast.map decodeLine, parts.getLast?.getD [])

/-- At the end of the bytes what waits is a line, unless it is empty. -/
def lastLine? (waiting : List UInt8) : Option String :=
  if waiting.isEmpty then none else some (decodeLine waiting)

def pushChunks (waiting : List UInt8) : List (List UInt8) → List (List String) × List UInt8
  | [] => ([], waiting)
  | chunk :: chunks =>
      let (lines, waiting) := pushChunk waiting chunk
      let (more, waiting) := pushChunks waiting chunks
      (lines :: more, waiting)

abbrev Source := List (Except String (List UInt8))

/-- A reader that gives the lines of a source one at a time. Lines that a chunk has completed are ready
until they are taken. -/
structure LineReader where
  source : Source
  waiting : List UInt8
  ready : List String
  finished : Bool

namespace LineReader

def start (source : Source) : LineReader := ⟨source, [], [], false⟩

/-- Reads on until a line is complete. A source that breaks off is not read any further, and what waits
is lost. -/
def fetch (waiting : List UInt8) : Source → Option (Except Failure String × LineReader)
  | [] => (lastLine? waiting).map fun line => (.ok line, ⟨[], [], [], true⟩)
  | .error why :: source =>
      some (.error (.provider ("stream interrupted: " ++ why)), ⟨source, waiting, [], true⟩)
  | .ok chunk :: source =>
      match pushChunk waiting chunk with
      | ([], waiting) => fetch waiting source
      | (line :: ready, waiting) => some (.ok line, ⟨source, waiting, ready, false⟩)

def next? (r : LineReader) : Option (Except Failure String × LineReader) :=
  match r.ready with
  | line :: ready => some (.ok line, { r with ready })
  | [] => if r.finished then none else fetch r.waiting r.source

def pendingItems (r : LineReader) : Nat :=
  if r.finished then 0 else r.source.length + 1

theorem pendingItems_fetch {waiting : List UInt8} {source : Source} {item : Except Failure String}
    {r : LineReader} (h : fetch waiting source = some (item, r)) :
    r.pendingItems < source.length + 1 := by
  induction source generalizing waiting with
  | nil =>
      obtain ⟨line, _, he⟩ := Option.map_eq_some_iff.1 h
      cases he
      exact Nat.zero_lt_one
  | cons first source ih =>
      cases first with
      | error why =>
          cases h
          exact Nat.succ_pos _
      | ok chunk =>
          rw [fetch] at h
          split at h
          · exact Nat.lt_succ_of_lt (ih h)
          · cases h
            exact Nat.lt_succ_self _

theorem next?_decreases {r r' : LineReader} {item : Except Failure String}
    (h : r.next? = some (item, r')) :
    Prod.Lex (· < ·) (· < ·) (r'.pendingItems, r'.ready.length)
      (r.pendingItems, r.ready.length) := by
  rw [next?] at h
  split at h
  · rename_i line ready hready
    cases h
    rw [hready]
    exact .right _ (Nat.lt_succ_self _)
  · split at h
    · cases h
    · rename_i hfinished
      refine .left _ _ ?_
      rw [pendingItems.eq_def r, if_neg hfinished]
      exact pendingItems_fetch h

def all (r : LineReader) : List (Except Failure String) :=
  match _h : r.next? with
  | none => []
  | some (item, r') => item :: all r'
termination_by (r.pendingItems, r.ready.length)
decreasing_by exact next?_decreases _h

end LineReader

end Advisor.Stream
