import PaperIndex.Error
import PaperIndex.Json.Choice

/-! # Trending windows

Views are counted within three trailing windows beside the count over all time. -/

namespace PaperIndex.Metrics

/-- A trailing window. -/
inductive Window
  | day
  | week
  | month
deriving DecidableEq, Repr

namespace Window

/-- All windows, the shortest first. -/
def all : List Window := [.day, .week, .month]

/-- The label of a window. -/
def label : Window → String
  | .day => "24h"
  | .week => "7d"
  | .month => "30d"

/-- The length of a window in milliseconds. -/
def span : Window → Int
  | .day => 24 * 3600000
  | .week => 7 * 24 * 3600000
  | .month => 30 * 24 * 3600000

/-- The window with a label, if there is one. -/
def ofLabel? (s : String) : Option Window := all.find? fun w => w.label == s

/-- The window with a label. -/
def ofLabel (s : String) : Except InputFault Window :=
  match ofLabel? s with
  | some w => .ok w
  | none => .error (.unknownWindow s)

/-- Reads a window from a text that holds nothing else. -/
def ofText (s : String) : Json.Decoded Window := do
  let k ← Json.decodeChoice (all.map label) s
  match ofLabel? k with
  | some w => return w
  | none => .error (.data (.unknownVariant k (all.map label)))

theorem mem_all (w : Window) : w ∈ all := by cases w <;> simp [all]

theorem ofLabel?_label (w : Window) : ofLabel? w.label = some w := by cases w <;> decide

theorem span_pos (w : Window) : 0 < w.span := by cases w <;> decide

end Window

end PaperIndex.Metrics
