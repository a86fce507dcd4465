import GatedLog.Console.Line

/-!
# Lines of the console

A line is put together from the headings that its layout shows, in one order for all layouts. Colour
comes to the level only, and only where the layout shows the level and asks for colour and colours
are on (`ConsoleLayout.laidOut`).
-/

namespace GatedLog

/-- A heading of a line. -/
inductive Heading where
  | level
  | component
  | time
  | thread
  deriving DecidableEq, Repr

namespace Heading

/-- Every heading, in the order of a line. -/
def all : List Heading := [level, component, time, thread]

/-- What a heading says, without colour. -/
def text (stamp : Stamp) (s : Severity) (k : Component) : Heading → String
  | level => s.label
  | component => k.label
  | time => "[" ++ stamp.time ++ "]"
  | thread => "[Thread id = ThreadId(" ++ String.ofList (Text.decimalNat stamp.thread) ++ ")]"

end Heading

namespace ConsoleLayout

/-- Whether a layout shows a heading. -/
def shows (l : ConsoleLayout) : Heading → Bool
  | .level => l.showLevel
  | .component => l.showComponent
  | .time => l.showTimestamp
  | .thread => l.showThread

/-- The headings that the layout shows, one after the other. -/
def shown (l : ConsoleLayout) (stamp : Stamp) (s : Severity) (k : Component) : String :=
  String.join ((Heading.all.filter l.shows).map (Heading.text stamp s k))

/-- How lines are laid out. -/
structure LaidOut (l : ConsoleLayout) : Prop where
  /-- The headings that are shown, four spaces, the text and a newline. -/
  headings : ∀ stamp s k text,
    l.line false stamp s k text = l.shown stamp s k ++ "    " ++ text ++ "\n"
  /-- There is no colour in a line unless the level is shown, colour is asked for and colours are
  on. -/
  plain : ∀ colors stamp s k text, ¬ (l.showLevel = true ∧ l.color = true ∧ colors = true) →
    l.line colors stamp s k text = l.line false stamp s k text
  /-- Otherwise it is the label of the level that is coloured, and nothing else. -/
  colored : ∀ stamp s k text, l.showLevel = true → l.color = true →
    ∃ rest, l.line false stamp s k text = s.label ++ rest ∧
      l.line true stamp s k text = s.colorCode ++ s.label ++ Severity.colorReset ++ rest

theorem levelHeading_of_not {l : ConsoleLayout} {colors : Bool}
    (h : ¬ (l.showLevel = true ∧ l.color = true ∧ colors = true)) (s : Severity) :
    l.levelHeading colors s = l.levelHeading false s := by
  unfold levelHeading
  by_cases hl : l.showLevel = true
  · have hcolor : (l.color && colors) = false := by
      rw [Bool.eq_false_iff, ne_eq, Bool.and_eq_true]
      exact fun hc => h ⟨hl, hc⟩
    rw [if_pos hl, if_pos hl, hcolor, Bool.and_false]
  · rw [if_neg hl, if_neg hl]

/-- A heading that is shown comes in front of those that are shown after it. -/
theorem join_shown_cons (l : ConsoleLayout) (f : Heading → String) (h : Heading)
    (hs : List Heading) : String.join (((h :: hs).filter l.shows).map f) =
      (if l.shows h then f h else "") ++ String.join ((hs.filter l.shows).map f) := by
  cases hshows : l.shows h with
  | false => simp [hshows]
  | true => simp [hshows, String.join_cons]

/-- What a heading says in a line, in colour where there is any. -/
def painted (l : ConsoleLayout) (colors : Bool) (stamp : Stamp) (s : Severity) (k : Component) :
    Heading → String
  | .level => if l.color && colors then s.coloredLabel else s.label
  | h => h.text stamp s k

theorem headings_eq_painted (l : ConsoleLayout) (colors : Bool) (stamp : Stamp) (s : Severity)
    (k : Component) : l.headings colors stamp s k =
      String.join ((Heading.all.filter l.shows).map (l.painted colors stamp s k)) := by
  have hnil : String.join (([].filter l.shows).map (l.painted colors stamp s k)) = "" := rfl
  rw [Heading.all, join_shown_cons, join_shown_cons, join_shown_cons, join_shown_cons, hnil,
    String.append_empty, headings]
  simp only [String.append_assoc]
  rfl

theorem painted_false (l : ConsoleLayout) (stamp : Stamp) (s : Severity) (k : Component) :
    l.painted false stamp s k = Heading.text stamp s k := by
  funext h
  cases h with
  | level =>
    rw [painted, Bool.and_false]
    rfl
  | _ => rfl

theorem headings_false (l : ConsoleLayout) (stamp : Stamp) (s : Severity) (k : Component) :
    l.headings false stamp s k = l.shown stamp s k := by
  rw [headings_eq_painted, painted_false, shown]

theorem laidOut (l : ConsoleLayout) : l.LaidOut where
  headings stamp s k text := by rw [line, headings_false]
  plain colors stamp s k text h := by
    rw [line, ConsoleLayout.headings, levelHeading_of_not h]
    rfl
  colored stamp s k text hl hc := by
    refine ⟨l.componentHeading k ++ l.timeHeading stamp ++ l.threadHeading stamp ++ "    " ++
      text ++ "\n", ?_, ?_⟩
    · simp only [line, ConsoleLayout.headings, levelHeading, hl, Bool.and_false,
        Bool.false_eq_true, if_true, if_false, String.append_assoc]
    · simp only [line, ConsoleLayout.headings, levelHeading, hl, hc, Bool.and_self, if_true,
        Severity.coloredLabel, String.append_assoc]

end ConsoleLayout

end GatedLog
