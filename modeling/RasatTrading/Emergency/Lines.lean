import RasatTrading.Document.Proper
import RasatTrading.Document.RoundTrip
import RasatTrading.Emergency.Entries

/-! The lines of the emergency log: what a line that is appended leaves of the lines before it, and adds to them. -/

namespace Rasat

open Document

variable {content : ByteArray} {rows : List Document}

/-- Text appended to a file is read after what was there. -/
theorem decoded_append {text more : String} (decoded : String.fromUTF8? content = some text) :
    String.fromUTF8? (content ++ more.toByteArray) = some (text ++ more) := by
  rw [decoded_iff] at decoded ⊢
  rw [String.toByteArray_append, decoded]

/-- Characters without the separator are added to the last part. -/
theorem splitOnP_append {α : Type} {p : α → Bool} {more : List α} (whole : ∀ c ∈ more, p c = false)
    (front : List α) : ∃ parts last, front.splitOnP p = parts ++ [last] ∧
      (front ++ more).splitOnP p = parts ++ [last ++ more] := by
  induction front with
  | nil => exact ⟨[], [], by simp, by simpa using List.splitOnP_eq_singleton whole⟩
  | cons c rest ih =>
    obtain ⟨parts, last, before, after⟩ := ih
    rw [List.cons_append, List.splitOnP_cons_eq_if_modifyHead, List.splitOnP_cons_eq_if_modifyHead, before, after]
    by_cases separator : p c
    · exact ⟨[] :: parts, last, by simp [separator], by simp [separator]⟩
    · cases parts with
      | nil => exact ⟨[], c :: last, by simp [separator], by simp [separator]⟩
      | cons first parts =>
        exact ⟨(c :: first) :: parts, last, by simp [separator], by simp [separator]⟩

/-- A line that is appended extends the last line of the file and ends it. -/
theorem linesOf_append {line : String} (whole : ∀ c ∈ line.toList, isBreak c = false) (text : String) :
    ∃ before last, linesOf text = before ++ [last] ∧
      linesOf (text ++ (line ++ "\n")) = before ++ [last ++ line, ""] := by
  obtain ⟨parts, last, old, new⟩ := splitOnP_append whole text.toList
  refine ⟨parts.map String.ofList, String.ofList last, by simp [linesOf, old], ?_⟩
  have ended : (text.toList ++ line.toList ++ '\n' :: []).splitOnP isBreak =
      (parts ++ [last ++ line.toList]) ++ [[]] := by
    rw [List.splitOnP_append_cons _ _ (by decide), new, List.splitOnP_nil]
  have chars : (text ++ (line ++ "\n")).toList = text.toList ++ line.toList ++ '\n' :: [] := by
    simp [String.toList_append, List.append_assoc]
  unfold linesOf
  rw [chars, ended]
  simp [String.ofList_append]

/-- A text is blank when it has nothing but spaces. -/
theorem strip_empty {s : String} : strip s = "" ↔ ∀ c ∈ s.toList, isSpace c = true := by
  unfold strip
  constructor
  · intro blank
    have bare : (s.toList.dropWhile isSpace).rdropWhile isSpace = [] := by
      simpa using congrArg String.toList blank
    -- What is left at the front starts with no space.
    cases kept : s.toList.dropWhile isSpace with
    | nil => exact List.dropWhile_eq_nil_iff.mp kept
    | cons c rest =>
      rw [kept, List.rdropWhile_eq_nil_iff] at bare
      have solid := List.head?_dropWhile_not isSpace s.toList
      rw [kept] at solid
      simp [bare c List.mem_cons_self] at solid
  · intro blank
    rw [List.dropWhile_eq_nil_iff.mpr blank]
    rfl

/-- An object's line is not changed by stripping, whatever spaces stand before it. -/
theorem strip_braced {last line : String} {inner : List Char} (blank : strip last = "")
    (braced : line.toList = '\x7b' :: inner ++ ['\x7d']) : strip (last ++ line) = line := by
  unfold strip
  rw [String.toList_append, List.dropWhile_append, List.dropWhile_eq_nil_iff.mpr (strip_empty.mp blank)]
  simp only [List.isEmpty_nil, if_true]
  rw [braced, List.cons_append, List.dropWhile_cons_of_neg (by decide), ← List.cons_append,
    List.rdropWhile_concat_neg _ _ _ (by decide), ← braced, String.ofList_toList]

/-- The last line is ended, or blank. -/
def Terminated (text : String) : Prop := ∀ last ∈ (linesOf text).getLast?, strip last = ""

/-! The rows of the lines. -/

theorem entriesOf_blank {last : String} (blank : strip last = "") (before : List String) :
    entriesOf (before ++ [last]) = entriesOf before := by
  induction before with
  | nil => simp [entriesOf, blank]
  | cons line rest ih =>
    rw [List.cons_append, entriesOf, entriesOf, ih]

theorem entriesOf_append {front back : List String} {more : List Document} (first : entriesOf front = .ok rows)
    (second : entriesOf back = .ok more) : entriesOf (front ++ back) = .ok (rows ++ more) := by
  induction front generalizing rows with
  | nil =>
    cases first
    exact second
  | cons line rest ih =>
    rw [List.cons_append]
    rw [entriesOf] at first ⊢
    by_cases blank : strip line = ""
    · rw [if_pos blank] at first ⊢
      exact ih first
    · rw [if_neg blank] at first ⊢
      obtain ⟨row, read, first⟩ := bind_ok.mp first
      obtain ⟨others, found, same⟩ := bind_ok.mp first
      cases same
      rw [read, ih found]
      rfl

/-- Every line that is not blank gives one row. -/
theorem entriesOf_length {lines : List String} (read : entriesOf lines = .ok rows) :
    rows.length = (lines.filter fun line => strip line ≠ "").length := by
  induction lines generalizing rows with
  | nil => cases read; rfl
  | cons line rest ih =>
    rw [entriesOf] at read
    by_cases blank : strip line = ""
    · rw [if_pos blank] at read
      simpa [blank] using ih read
    · rw [if_neg blank] at read
      obtain ⟨row, -, read⟩ := bind_ok.mp read
      obtain ⟨others, found, same⟩ := bind_ok.mp read
      cases same
      simpa [blank] using ih found

/-- The row of a line can be written again, up to its texts. -/
theorem entryOf_proper {line : String} {row : Document} (read : entryOf line = .ok row) : Proper row := by
  unfold entryOf at read
  split at read
  · rename_i document parsed
    cases read
    exact read_proper parsed
  · cases read
  · cases read
    exact ⟨rfl, rfl⟩

/-- So can all rows. -/
theorem entriesOf_proper {lines : List String} (read : entriesOf lines = .ok rows) :
    ∀ row ∈ rows, Proper row := by
  induction lines generalizing rows with
  | nil =>
    cases read
    exact List.forall_mem_nil _
  | cons line rest ih =>
    rw [entriesOf] at read
    split at read
    · exact ih read
    · obtain ⟨row, parsed, read⟩ := bind_ok.mp read
      obtain ⟨others, found, same⟩ := bind_ok.mp read
      cases same
      exact List.forall_mem_cons.mpr ⟨entryOf_proper parsed, ih found⟩

/-- What can be read of a file. -/
theorem entries_ok : entries content = .ok rows ↔
    ∃ text, String.fromUTF8? content = some text ∧ entriesOf (linesOf text) = .ok rows := by
  unfold entries
  cases String.fromUTF8? content with
  | none => exact iff_of_false (fun parsed => by cases parsed) fun ⟨_, decoded, _⟩ => by cases decoded
  | some text => exact ⟨fun parsed => ⟨text, rfl, parsed⟩, fun ⟨_, decoded, parsed⟩ => by cases decoded; exact parsed⟩

theorem entries_proper (read : entries content = .ok rows) : ∀ row ∈ rows, Proper row := by
  obtain ⟨text, -, lines⟩ := entries_ok.mp read
  exact entriesOf_proper lines

/-- A line that is written behind an unfinished line gives no row of its own. -/
theorem entriesOf_merged {text line : String} {row : Document} (unended : ¬Terminated text)
    (whole : ∀ c ∈ line.toList, isBreak c = false) (read : entriesOf (linesOf text) = .ok rows) :
    entriesOf (linesOf (text ++ (line ++ "\n"))) ≠ .ok (rows ++ [row]) := by
  intro reread
  obtain ⟨before, last, old, new⟩ := linesOf_append whole text
  have solid : ¬strip last = "" := fun blank => unended fun other listed => by
    rw [old] at listed
    simp at listed
    exact listed ▸ blank
  have merged : ¬strip (last ++ line) = "" := fun blank => solid <| strip_empty.mpr fun c member =>
    strip_empty.mp blank c (by simp [String.toList_append, member])
  -- Both files have as many lines that are not blank.
  have less := entriesOf_length read
  have more := entriesOf_length reread
  rw [old] at less
  rw [new] at more
  simp [solid, merged, show strip "" = "" from by decide] at less more
  omega

/-- The line of an object has no line break inside. -/
theorem written_whole (document : Document) :
    ∀ c ∈ (String.ofList document.write).toList, isBreak c = false := by
  intro c listed
  rw [String.toList_ofList] at listed
  have visible := printable_write _ listed
  simp only [isBreak, decide_eq_false_iff_not, not_or]
  constructor <;> rintro rfl <;> exact absurd visible (by decide)

/-- The rows of a file that ends with a line break. -/
structure LogHolds (content : ByteArray) (rows : List Document) : Prop where
  ended : ∃ text, String.fromUTF8? content = some text ∧ Terminated text ∧ entriesOf (linesOf text) = .ok rows

theorem LogHolds.entries (holds : LogHolds content rows) : entries content = .ok rows := by
  obtain ⟨text, decoded, -, read⟩ := holds.ended
  unfold Rasat.entries
  rw [decoded]
  exact read

theorem LogHolds.proper (holds : LogHolds content rows) : ∀ row ∈ rows, Proper row := by
  obtain ⟨text, -, -, read⟩ := holds.ended
  exact entriesOf_proper read

theorem holds_empty : LogHolds .empty [] := by
  refine ⟨"", by decide +kernel, ?_, ?_⟩
  · intro last listed
    have only : linesOf "" = [""] := by decide
    rw [only] at listed
    cases listed
    decide
  · rfl

/-- A document that is written on a line of its own is read back behind the rows before it. -/
theorem LogHolds.append (holds : LogHolds content rows)
    {members : List (Str × Document)} (encodable : (Document.object members).encodable = true)
    (short : (Document.object members).short = true) (distinct : (Document.object members).distinct = true) :
    LogHolds (content ++ (String.ofList (Document.object members).write ++ "\n").toByteArray)
      (rows ++ [.object members]) := by
  obtain ⟨text, decoded, ended, read⟩ := holds.ended
  obtain ⟨before, last, old, new⟩ := linesOf_append (written_whole (.object members)) text
  obtain ⟨inner, braced⟩ := write_object members
  have blank : strip last = "" := ended last (by simp [old])
  have line : strip (last ++ String.ofList (Document.object members).write) =
      String.ofList (Document.object members).write :=
    strip_braced blank (by rw [String.toList_ofList, braced])
  rw [old, entriesOf_blank blank] at read
  refine ⟨_, decoded_append decoded, ?_, ?_⟩
  · intro final listed
    rw [new] at listed
    obtain rfl : "" = final := by simpa using listed
    decide
  · -- The new line is the document, and the blank rest reads as nothing.
    rw [new]
    apply entriesOf_append read
    have filled : String.ofList (Document.object members).write ≠ "" := by
      rw [braced]
      simp
    rw [entriesOf, line, if_neg filled, entryOf, String.toList_ofList, read_write short encodable distinct]
    rfl

end Rasat
