import ClipPic.Library.Calendar
import ClipPic.Screens.Post
import Mathlib.Data.Rat.Floor

/-!
# The dates of comments

The preview under a post and the table of all its comments write the time of a comment by the pattern
`YYYY.MM.dd`, whose `YYYY` is the year that weeks are numbered by. What they show is the date of the
comment exactly when that day is not one of the few near New Year whose week is numbered in the other
year (`commentDates_iff`); with `yyyy` it always would be (`string_yyyy_eq_dateString`).
-/

namespace ClipPic

/-! ## Formatters -/

/-- A number with at least `width` digits. -/
def number (width : ℕ) (n : ℤ) : List Char :=
  (if n < 0 then ['-'] else []) ++ (Nat.toDigits 10 n.natAbs).leftpad width '0'

/-- The Gregorian calendar of the user: the time zone, which may differ by the instant, and the week
rule of the locale. -/
structure UserCalendar where
  secondsFromGMT : ℚ → ℤ
  week : Calendar.WeekRule

/-- The day of an instant, which counts the seconds since 1970. -/
def UserCalendar.day (calendar : UserCalendar) (instant : ℚ) : ℤ :=
  ⌊(instant + calendar.secondsFromGMT instant) / 86400⌋

structure DateFormatter where
  calendar : UserCalendar
  dateFormat : String

namespace DateFormatter

/-- What stands for a run of one character; of the letters only the fields of a date are here. -/
def field (formatter : DateFormatter) (day : ℤ) (run : List Char) : List Char :=
  match String.ofList run with
  | "yyyy" => number 4 (Calendar.dates day).year
  | "YYYY" => number 4 (formatter.calendar.week.weekYear day)
  | "MM" => number 2 (Calendar.dates day).month
  | "dd" => number 2 (Calendar.dates day).day
  | _ => run

def string (formatter : DateFormatter) (date : ℚ) : String :=
  String.ofList <| (formatter.dateFormat.toList.splitBy (· == ·)).flatMap
    (formatter.field (formatter.calendar.day date))

end DateFormatter

/-! ## The lists of comments -/

/-- What a `CommentView` shows, or a `CommentTableViewCell`. -/
structure CommentView where
  creatorName : String
  creatorThread : String
  commentDate : String
  creatorImage : String

section views

variable (calendar : UserCalendar) (comments : List Comment)

/-- The comment views that `updateCommentSection` arranges. -/
def PostScreen.commentViews : List CommentView :=
  (comments.take 2).map fun comment =>
    { creatorName := comment.creator.name
      creatorThread := comment.text
      commentDate := DateFormatter.string ⟨calendar, "YYYY.MM.dd"⟩ comment.createdTime
      creatorImage := comment.creator.avatar }

def CommentTableView.cellForRowAt (row : ℕ) : Option CommentView :=
  (comments[row]?).map fun comment =>
    { commentDate := DateFormatter.string ⟨calendar, "YYYY.MM.dd"⟩ comment.createdTime
      creatorName := comment.creator.name
      creatorThread := comment.text
      creatorImage := comment.creator.avatar }

end views

/-! ## Dates -/

theorem ofDigitChars_leftpad (width n : ℕ) :
    Nat.ofDigitChars 10 ((Nat.toDigits 10 n).leftpad width '0') 0 = n := by
  simp [List.leftpad, Nat.ofDigitChars_append]

theorem minus_not_mem_leftpad (width n : ℕ) : '-' ∉ (Nat.toDigits 10 n).leftpad width '0' := by
  intro hmem
  rcases List.mem_append.1 hmem with hmem | hmem
  · exact absurd (List.eq_of_mem_replicate hmem) (by decide)
  · exact absurd (Nat.isDigit_of_mem_toDigits (by decide) (by decide) hmem) (by decide)

theorem number_injective (width : ℕ) : Function.Injective (number width) := by
  have hdigits : ∀ {m n : ℕ}, (Nat.toDigits 10 m).leftpad width '0' =
      (Nat.toDigits 10 n).leftpad width '0' → m = n := by
    intro m n h
    rw [← ofDigitChars_leftpad width m, h, ofDigitChars_leftpad]
  intro a b h
  unfold number at h
  by_cases ha : a < 0
  · by_cases hb : b < 0
    · rw [if_pos ha, if_pos hb, List.append_cancel_left_eq] at h
      have habs := hdigits h
      omega
    · rw [if_pos ha, if_neg hb, List.nil_append] at h
      have hmem : '-' ∈ (Nat.toDigits 10 b.natAbs).leftpad width '0' := h ▸ List.mem_cons_self
      exact absurd hmem (minus_not_mem_leftpad width _)
  · by_cases hb : b < 0
    · rw [if_neg ha, if_pos hb, List.nil_append] at h
      have hmem : '-' ∈ (Nat.toDigits 10 a.natAbs).leftpad width '0' := h ▸ List.mem_cons_self
      exact absurd hmem (minus_not_mem_leftpad width _)
    · rw [if_neg ha, if_neg hb, List.append_cancel_left_eq] at h
      have habs := hdigits h
      omega

/-- Year, month and day of an instant. -/
def UserCalendar.dateString (calendar : UserCalendar) (instant : ℚ) : String :=
  let date := Calendar.dates (calendar.day instant)
  String.ofList (number 4 date.year ++ '.' :: number 2 date.month ++ '.' :: number 2 date.day)

section patterns

variable (calendar : UserCalendar) (instant : ℚ)

/-- A pattern of a year, the month and the day. -/
theorem string_of_runs {pattern : String} {year : List Char}
    (hruns : pattern.toList.splitBy (· == ·) =
      [year, ".".toList, "MM".toList, ".".toList, "dd".toList]) :
    DateFormatter.string ⟨calendar, pattern⟩ instant =
      String.ofList (DateFormatter.field ⟨calendar, pattern⟩ (calendar.day instant) year ++
        '.' :: number 2 (Calendar.dates (calendar.day instant)).month ++
        '.' :: number 2 (Calendar.dates (calendar.day instant)).day) := by
  rw [DateFormatter.string, hruns]
  simp [DateFormatter.field]

/-- With the calendar's year a formatter gives the date of every instant. -/
theorem string_yyyy_eq_dateString :
    DateFormatter.string ⟨calendar, "yyyy.MM.dd"⟩ instant = calendar.dateString instant := by
  have hruns : "yyyy.MM.dd".toList.splitBy (· == ·) =
      ["yyyy".toList, ".".toList, "MM".toList, ".".toList, "dd".toList] := by decide
  rw [string_of_runs calendar instant hruns]
  simp [DateFormatter.field, UserCalendar.dateString]

/-- With the year of the weeks it gives the date when both years agree. -/
theorem string_eq_dateString_iff :
    DateFormatter.string ⟨calendar, "YYYY.MM.dd"⟩ instant = calendar.dateString instant ↔
      ¬ calendar.week.NearNewYear (calendar.day instant) := by
  have hruns : "YYYY.MM.dd".toList.splitBy (· == ·) =
      ["YYYY".toList, ".".toList, "MM".toList, ".".toList, "dd".toList] := by decide
  have hyear : DateFormatter.field ⟨calendar, "YYYY.MM.dd"⟩ (calendar.day instant) "YYYY".toList =
      number 4 (calendar.week.weekYear (calendar.day instant)) := by
    simp [DateFormatter.field]
  rw [string_of_runs calendar instant hruns, hyear, UserCalendar.dateString, String.ofList_inj,
    List.append_cancel_right_eq, List.append_cancel_right_eq, (number_injective 4).eq_iff,
    Calendar.WeekRule.weekYear_eq_year_iff]

end patterns

/-- **Comment dates are calendar dates**, in the preview and in the table of any comments, exactly when
no comment was written near New Year in a week that is numbered in the other year. -/
theorem commentDates_iff (calendar : UserCalendar) (comments : List Comment) :
    ((∀ (i : ℕ) comment view, comments[i]? = some comment →
        (PostScreen.commentViews calendar comments)[i]? = some view →
        view.commentDate = calendar.dateString comment.createdTime) ∧
      ∀ (row : ℕ) comment cell, comments[row]? = some comment →
        CommentTableView.cellForRowAt calendar comments row = some cell →
        cell.commentDate = calendar.dateString comment.createdTime) ↔
      ∀ comment ∈ comments, ¬ calendar.week.NearNewYear (calendar.day comment.createdTime) := by
  constructor
  · rintro ⟨-, hcells⟩ comment hmem
    obtain ⟨row, hrow⟩ := List.mem_iff_getElem?.1 hmem
    exact (string_eq_dateString_iff calendar _).1
      (hcells row comment _ hrow (by rw [CommentTableView.cellForRowAt, hrow]; rfl))
  · intro hdays
    constructor
    · intro i comment view hcomment hview
      rw [PostScreen.commentViews, List.getElem?_map] at hview
      obtain ⟨other, hother, rfl⟩ := Option.map_eq_some_iff.1 hview
      rw [List.getElem?_take] at hother
      obtain ⟨-, hother⟩ := Option.ite_none_right_eq_some.1 hother
      obtain rfl := Option.some.inj (hcomment.symm.trans hother)
      exact (string_eq_dateString_iff calendar _).2 (hdays comment (List.mem_of_getElem? hcomment))
    · intro row comment cell hcomment hcell
      rw [CommentTableView.cellForRowAt, hcomment] at hcell
      obtain rfl := Option.some.inj hcell
      exact (string_eq_dateString_iff calendar _).2 (hdays comment (List.mem_of_getElem? hcomment))

/-- Weeks that start on Sunday, the first of a year with 1 January, in Greenwich. -/
def sundayWeeks : UserCalendar := ⟨fun _ => 0, ⟨1, 1, by decide, by decide⟩⟩

/-- A comment of noon on 31 December 2021 is shown as one of 2022. -/
theorem newYearsEve_shown_late :
    let comment : Comment := ⟨"hello", ⟨"bob", "bob", "photo"⟩, "Hello", 1640952000, "chair"⟩
    (CommentTableView.cellForRowAt sundayWeeks [comment] 0).map (·.commentDate) = some "2022.12.31" ∧
      (PostScreen.commentViews sundayWeeks [comment]).map (·.commentDate) = ["2022.12.31"] ∧
      sundayWeeks.dateString comment.createdTime = "2021.12.31" := by
  decide +kernel

end ClipPic
