-- Windows over a stream: so many lines in a row, and how often each token
-- occurs in them. A pass slides one line at a time and changes the counts by
-- the line that leaves and the line that enters only.
import Lookalike.Listing.Stream
import Lookalike.Ordered

namespace Lookalike

/-! ## Counts -/

/-- How often each token occurs; a token that does not occur has no entry. -/
structure Counts where
  entries : List (String × Nat)

namespace Counts

/-- No token occurs. -/
def empty : Counts := ⟨[]⟩

/-- How often a token occurs. -/
def get (c : Counts) (t : String) : Nat := (Ordered.get? t c.entries).getD 0

/-- One more of a token. -/
def add (c : Counts) (t : String) : Counts := ⟨Ordered.alter t (fun n => n.getD 0 + 1) c.entries⟩

/-- One less of a token in a list of entries; an entry that reaches zero goes. -/
def removeFrom (t : String) : List (String × Nat) → List (String × Nat)
  | [] => []
  | (t', n) :: rest =>
    if t' = t then if n ≤ 1 then rest else (t', n - 1) :: rest
    else (t', n) :: removeFrom t rest

/-- One less of a token. -/
def remove (c : Counts) (t : String) : Counts := ⟨removeFrom t c.entries⟩

def addLine (c : Counts) (l : Line) : Counts := l.tokens.foldl add c

def removeLine (c : Counts) (l : Line) : Counts := l.tokens.foldl remove c

/-- The counts of lines, from scratch. -/
def ofLines (ls : List Line) : Counts := ls.foldl addLine empty

/-- The entries by token. -/
def sorted (c : Counts) : List (String × Nat) :=
  c.entries.mergeSort fun a b => (compare a.1 b.1).isLE

theorem get_add (c : Counts) (t u : String) :
    (c.add t).get u = c.get u + if t = u then 1 else 0 := by
  unfold get add
  by_cases h : t = u
  · subst h; simp [Ordered.get?_alter_self]
  · simp [Ordered.get?_alter_of_ne h, h]

end Counts

/-! ## Windows -/

/-- A window: the place of its first line in the stream, and its counts. -/
structure Window where
  offset : Nat
  counts : Counts

/-- The window at the start of a stream, if the stream is long enough. -/
def firstWindow? (lines : List Line) (width : Nat) : Option Window :=
  if width = 0 ∨ lines.length < width then none
  else some ⟨0, Counts.ofLines (lines.take width)⟩

/-! ## A pass over the windows -/

/-- A pass: the next window, the lines from its start, and the lines behind it. It ends where no
line is left behind the window, so the last place of a stream is never visited. -/
structure Pass where
  next : Window
  leaving : List Line
  entering : List Line

namespace Pass

/-- A pass from the start. A width of zero has no windows. -/
def start (lines : List Line) (width : Nat) : Pass :=
  if width = 0 then ⟨⟨0, .empty⟩, [], []⟩
  else ⟨⟨0, Counts.ofLines (lines.take width)⟩, lines, lines.drop width⟩

/-- The number of windows left. -/
def remaining (p : Pass) : Nat := p.entering.length

/-- The next window, and the pass behind it. -/
def step? (p : Pass) : Option (Window × Pass) :=
  match p.leaving, p.entering with
  | out :: leaving, into :: entering =>
    some (p.next,
      ⟨⟨p.next.offset + 1, (p.next.counts.removeLine out).addLine into⟩, leaving, entering⟩)
  | _, _ => none

/-- Leave out `n` windows and give the next one; a pass with too few ends. -/
def skip : Nat → Pass → Option Window × Pass
  | 0, p =>
    match p.step? with
    | some (w, p) => (some w, p)
    | none => (none, p)
  | n + 1, p =>
    match p.step? with
    | some (_, p) => skip n p
    | none => (none, p)

/-- The windows of a pass: the counts slide along the leaving and the entering lines. -/
def slide (w : Window) : List Line → List Line → List Window
  | out :: leaving, into :: entering =>
    w :: slide ⟨w.offset + 1, (w.counts.removeLine out).addLine into⟩ leaving entering
  | _, _ => []

/-- All windows left. -/
def toList (p : Pass) : List Window := slide p.next p.leaving p.entering

end Pass

/-- The windows at the places `0, 1, ...` of a stream. -/
def windows (lines : List Line) (width : Nat) : List Window := (Pass.start lines width).toList

end Lookalike
