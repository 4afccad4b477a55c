import Reachability.Text.Affix
import Reachability.Text.Blank
import Reachability.Text.Numeral

set_option autoImplicit false

/-! # Spans of time

A span is a whole number of nanoseconds below 2^64 seconds; sums that would exceed the longest span
are the longest span. Settings give spans as text: `500ms`, `5s`, `2m`, or a bare number of
seconds. -/

namespace Reachability

/-- The longest span, in nanoseconds. -/
def Span.limit : Nat := 18446744073709551615999999999

/-- A length of time in nanoseconds, at most `2 ^ 64 - 1` seconds and 999999999 nanoseconds. -/
structure Span where
  /-- The number of nanoseconds. -/
  nanos : Nat
  /-- No span is longer than the longest one. -/
  le_limit : nanos ≤ Span.limit
  deriving DecidableEq

namespace Span

/-- The span of `n` nanoseconds, or the longest span if that is longer. -/
def ofNanos (n : Nat) : Span := ⟨min n limit, Nat.min_le_right n limit⟩

/-- The span of `n` milliseconds, or the longest span. -/
def ofMillis (n : Nat) : Span := ofNanos (n * 1000000)

/-- The span of `n` seconds, or the longest span. -/
def ofSeconds (n : Nat) : Span := ofNanos (n * 1000000000)

/-- The empty span. -/
def zero : Span := ofNanos 0

instance : Inhabited Span := ⟨zero⟩

/-- The sum of two spans, or the longest span. -/
def add (a b : Span) : Span := ofNanos (a.nanos + b.nanos)

/-- Twice a span, or the longest span. -/
def double (a : Span) : Span := ofNanos (2 * a.nanos)

/-- What is left of `a` after `b`, nothing if `b` is longer. -/
def sub (a b : Span) : Span := ofNanos (a.nanos - b.nanos)

/-- The whole seconds of a span. -/
def seconds (a : Span) : Nat := a.nanos / 1000000000

/-- The nanoseconds of a span beyond its whole seconds. -/
def subsecNanos (a : Span) : Nat := a.nanos % 1000000000

/-- The least number of milliseconds that is not shorter than the span. -/
def ceilMillis (a : Span) : Nat := (a.nanos + 999999) / 1000000

@[simp] theorem nanos_ofNanos (n : Nat) : (ofNanos n).nanos = min n limit := rfl

theorem ext_nanos {a b : Span} (h : a.nanos = b.nanos) : a = b := by
  cases a; cases b; simp_all

/-! ## Spans as text -/

/-- A text that names no span. -/
structure Malformed where
  /-- The text, without blanks at its ends. -/
  text : String
  deriving DecidableEq

/-- What is said of a text that names no span. -/
def Malformed.message (e : Malformed) : String := "invalid duration '" ++ e.text ++ "'"

/-- The span that trimmed characters name. The longest unit that fits counts: `5ms` is five
    milliseconds, never `5m` seconds. -/
def ofChars? (cs : List Char) : Option Span :=
  let count := Text.unsigned? Text.wordBound
  match Text.cutEnding? ['m', 's'] cs with
  | some n => (count n).map ofMillis
  | none =>
    match Text.cutEnding? ['s'] cs with
    | some n => (count n).map ofSeconds
    | none =>
      match Text.cutEnding? ['m'] cs with
      | some n => (count n).map fun m => ofSeconds (m * 60)
      | none => (count cs).map ofSeconds

/-- Reads a span: a number with the unit `ms`, `s` or `m`, or with none for seconds. -/
def parse (s : String) : Except Malformed Span :=
  let t := Text.trim s
  match ofChars? t.toList with
  | some span => .ok span
  | none => .error ⟨t⟩

end Span

end Reachability
