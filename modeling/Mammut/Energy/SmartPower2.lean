import Mathlib.Algebra.Order.Ring.Nat
import Mammut.Cxx
import Mammut.Utils.Text

/-! `getWatts` of `CounterPlugSmartPower2Linux`, from `energy-linux.cpp`: the power is the third
value of the next line of the device, or the fourth of a long one.  The line comes through a buffer
of 50 characters, which the end of the stream leaves as it is. -/

namespace Mammut.Energy

open Utils

/-- `fgets` for at most `n` characters: what it reads, which is nothing at the end of the stream
only, and what is left. -/
def fgets : ℕ → List Char → List Char × List Char
  | 0, stream => ([], stream)
  | _, [] => ([], [])
  | n + 1, c :: stream =>
    if c = '\n' then ([c], stream)
    else
      let (read, left) := fgets n stream
      (c :: read, left)

/-- What a string function sees of a buffer. -/
def textOf (buff : List Char) : List Char := buff.takeWhile (· ≠ '\x00')

/-- `strchr`; `none` for `NULL`. -/
def strchr (c : Char) (text : List Char) : Option (List Char) :=
  match text.dropWhile (· ≠ c) with
  | [] => none
  | found => some found

/-- `strtok` with the delimiter `,`: the token and what the next call goes on with. -/
def strtok (text : List Char) : Option (List Char × List Char) :=
  match text.dropWhile (· = ',') with
  | [] => none
  | token => some (token.takeWhile (· ≠ ','), (token.dropWhile (· ≠ ',')).tail)

namespace SmartPower2

/-- The loop that skips the empty lines, with what the buffer holds.  It is not over when there is
no result. -/
def skipEmptyLines : ℕ → List Char → List Char → Option (List Char × List Char)
  | 0, _, _ => none
  | fuel + 1, buff, stream =>
    if buff.head? = some '\n' then
      match fgets 49 stream with
      | ([], _) => skipEmptyLines fuel buff stream
      | (read, left) => skipEmptyLines fuel read left
    else some (buff, stream)

/-- The loop over the tokens, with `n` of them still to come. -/
def nextValues : ℕ → Option (List Char × List Char) → Option (List Char)
  | _, none => none
  | 0, some (data, _) => some data
  | n + 1, some (_, rest) => nextValues n (strtok rest)

/-- `line`: the first value of a long line is removed. -/
def lineOf (text : List Char) : Option (List Char) :=
  if text.length > 28 then (strchr ',' text).map List.tail else some text

variable {W : Type} [Zero W] (atof : List Char → W)

/-- The state is `_usbFile`, with what it has yet to bring.  There is no value while the loop that
skips the empty lines is not over. -/
def getWatts (fuel : ℕ) : Call (Option (List Char)) (Option W) := do
  match ← get with
  | none => return some 0
  | some stream =>
    match skipEmptyLines fuel ['\n'] stream with
    | none => return none
    | some (buff, left) =>
      set (some left)
      let text := textOf buff
      if text.length ≥ 23 then
        match (lineOf text).bind fun line => nextValues 2 (strtok line) with
        | some data => return some (atof data)
        | none => throw .undefined
      else return some 0

/-- The values of a line. -/
def values (line : List Char) : List String := (splitFrom ',' [] line).filter (· ≠ "")

theorem values_comma (line : List Char) : values (',' :: line) = values line := by
  simp [values, splitFrom]

theorem values_dropWhile (line : List Char) : values (line.dropWhile (· = ',')) = values line := by
  induction line with
  | nil => rfl
  | cons c line ih =>
    by_cases hc : c = ','
    · subst hc
      rw [values_comma, ← ih]
      simp
    · simp [hc]

theorem values_last {token : List Char} (htoken : ',' ∉ token) (hne : token ≠ []) :
    values token = [String.ofList token] := by
  have hname : String.ofList token ≠ "" := by simpa [String.ofList_eq_empty_iff] using hne
  rw [values, splitFrom_last htoken (by simpa using hne)]
  simp [hname]

theorem values_first {token : List Char} (htoken : ',' ∉ token) (hne : token ≠ [])
    (rest : List Char) : values (token ++ ',' :: rest) = String.ofList token :: values rest := by
  have hname : String.ofList token ≠ "" := by simpa [String.ofList_eq_empty_iff] using hne
  rw [values, splitFrom_field htoken]
  simp [values, hname]

/-- A token is the first of the values that are left. -/
theorem values_strtok (line : List Char) : values line = match strtok line with
    | none => []
    | some (data, rest) => String.ofList data :: values rest := by
  rw [← values_dropWhile, strtok]
  cases hcs : line.dropWhile (· = ',') with
  | nil => rfl
  | cons c cs =>
    have hc : c ≠ ',' := by
      have hhead := List.head?_dropWhile_not (fun c : Char => decide (c = ',')) line
      simpa [hcs] using hhead
    have htoken : ',' ∉ (c :: cs).takeWhile (· ≠ ',') := fun hmem => by
      simpa using List.mem_takeWhile_imp hmem
    have hne : (c :: cs).takeWhile (· ≠ ',') ≠ [] := by simp [hc]
    have hhead := List.head?_dropWhile_not (fun c : Char => decide (c ≠ ',')) (c :: cs)
    have hsplit := (List.takeWhile_append_dropWhile (p := (· ≠ ',')) (l := c :: cs)).symm
    show values (c :: cs) = String.ofList ((c :: cs).takeWhile (· ≠ ',')) ::
      values ((c :: cs).dropWhile (· ≠ ',')).tail
    generalize (c :: cs).takeWhile (· ≠ ',') = token at *
    generalize (c :: cs).dropWhile (· ≠ ',') = rest at *
    rw [hsplit]
    cases rest with
    | nil =>
      rw [List.append_nil, values_last htoken hne]
      rfl
    | cons d rest =>
      have hd : d = ',' := by simpa using hhead
      rw [hd, values_first htoken hne]
      rfl

theorem nextValues_isSome (n : ℕ) (line : List Char) :
    (nextValues n (strtok line)).isSome ↔ n < (values line).length := by
  induction n generalizing line with
  | zero =>
    rw [values_strtok]
    cases strtok line with
    | none => simp [nextValues]
    | some token => simp [nextValues]
  | succ n ih =>
    rw [values_strtok]
    cases strtok line with
    | none => simp [nextValues]
    | some token => simp [nextValues, ih]

/-- The line has the values that `getWatts` takes the power from, unless it is a short one. -/
def HasPower (text : List Char) : Prop :=
  text.length < 23 ∨ ∃ line, lineOf text = some line ∧ 3 ≤ (values line).length

theorem lineOf_eq_some {text line : List Char} : lineOf text = some line ↔
    if 28 < text.length then ',' ∈ text ∧ line = (text.dropWhile (· ≠ ',')).tail
    else line = text := by
  unfold lineOf
  by_cases hlong : 28 < text.length
  · rw [if_pos hlong, if_pos hlong, strchr]
    cases hfound : text.dropWhile (· ≠ ',') with
    | nil =>
      have hnone := List.dropWhile_eq_nil_iff.mp hfound
      simp only [Option.map_none, reduceCtorEq, false_iff, not_and]
      intro hmem
      simpa using hnone ',' hmem
    | cons c found =>
      have hmem : ',' ∈ text := by
        by_contra hnot
        have hnil : text.dropWhile (· ≠ ',') = [] := by
          rw [List.dropWhile_eq_nil_iff]
          rintro d hd
          apply decide_eq_true
          rintro rfl
          exact hnot hd
        rw [hnil] at hfound
        cases hfound
      simp [hmem, eq_comm]
  · rw [if_neg hlong, if_neg hlong, Option.some.injEq, eq_comm]

theorem skipEmptyLines_line {c : Char} (hc : c ≠ '\n') (fuel : ℕ) (stream : List Char) :
    skipEmptyLines (fuel + 2) ['\n'] (c :: stream) = some (fgets 49 (c :: stream)) := by
  have hempty : ['\n'].head? = some '\n' := rfl
  have hread : fgets 49 (c :: stream) = (c :: (fgets 48 stream).1, (fgets 48 stream).2) := by
    simp [fgets, hc]
  have hhead : (c :: (fgets 48 stream).1).head? ≠ some '\n' := by simpa using hc
  rw [skipEmptyLines, if_pos hempty, hread]
  simp only [skipEmptyLines, if_neg hhead]

/-- The loop is over only when something follows the empty lines: the end of the stream leaves the
buffer, and the stream, as they are. -/
theorem skipEmptyLines_eq_some {fuel : ℕ} {stream : List Char} {r : List Char × List Char}
    (h : skipEmptyLines fuel ['\n'] stream = some r) :
    (∃ c ∈ stream, c ≠ '\n') ∧ r = fgets 49 (stream.dropWhile (· = '\n')) := by
  induction fuel generalizing stream with
  | zero => cases h
  | succ fuel ih =>
    cases stream with
    | nil => exact ih h
    | cons c stream =>
      by_cases hc : c = '\n'
      · subst hc
        obtain ⟨⟨d, hd, hne⟩, hr⟩ := ih h
        refine ⟨⟨d, List.mem_cons_of_mem _ hd, hne⟩, ?_⟩
        rw [hr]
        simp
      · rw [List.dropWhile_cons_of_neg (by simpa using hc)]
        cases fuel with
        | zero =>
          have hempty : ['\n'].head? = some '\n' := rfl
          simp [skipEmptyLines, fgets, hc] at h
        | succ fuel =>
          rw [skipEmptyLines_line hc, Option.some.injEq] at h
          exact ⟨⟨c, List.mem_cons_self, hc⟩, h.symm⟩

theorem skipEmptyLines_returns {stream : List Char} (h : ∃ c ∈ stream, c ≠ '\n') :
    ∃ fuel, skipEmptyLines fuel ['\n'] stream =
      some (fgets 49 (stream.dropWhile (· = '\n'))) := by
  induction stream with
  | nil => simp at h
  | cons c stream ih =>
    by_cases hc : c = '\n'
    · subst hc
      obtain ⟨d, hd, hne⟩ := h
      obtain ⟨fuel, hfuel⟩ := ih ⟨d, (List.mem_cons.mp hd).resolve_left hne, hne⟩
      refine ⟨fuel + 1, ?_⟩
      rw [List.dropWhile_cons_of_pos (by simp)]
      exact hfuel
    · refine ⟨2, ?_⟩
      rw [List.dropWhile_cons_of_neg (by simpa using hc)]
      exact skipEmptyLines_line hc 0 stream

/-- The text of the line after the empty lines, as far as the buffer holds it. -/
def nextText (stream : List Char) : List Char :=
  textOf (fgets 49 (stream.dropWhile (· = '\n'))).1

/-- What a call makes of a line in the buffer: no value, after a null pointer, of a long line without
the values. -/
theorem getWatts_run {fuel : ℕ} {stream : List Char} {r : List Char × List Char}
    (h : skipEmptyLines fuel ['\n'] stream = some r) :
    (getWatts atof fuel).run (some stream) =
      if (textOf r.1).length < 23 then .ok (some 0) (some r.2)
      else match (lineOf (textOf r.1)).bind fun line => nextValues 2 (strtok line) with
        | some data => .ok (some (atof data)) (some r.2)
        | none => .error .undefined (some r.2) := by
  have hget : (get : Call (Option (List Char)) _).run (some stream) =
      .ok (some stream) (some stream) := rfl
  have hset : (set (some r.2) : Call (Option (List Char)) PUnit).run (some stream) =
      .ok ⟨⟩ (some r.2) := rfl
  simp only [getWatts, EStateM.run_bind, hget, h, hset]
  by_cases hlen : (textOf r.1).length < 23
  · rw [if_neg (Nat.not_le_of_lt hlen), if_pos hlen]
    rfl
  · rw [if_pos (Nat.le_of_not_lt hlen), if_neg hlen]
    cases (lineOf (textOf r.1)).bind fun line => nextValues 2 (strtok line) <;> rfl

/-- `getWatts` returns exactly when the stream has a line that is not empty and that is short, or has
the values that the power is taken from. -/
theorem getWatts_returns_iff (stream : List Char) :
    (∃ fuel watts left, (getWatts atof fuel).run (some stream) = .ok (some watts) left) ↔
      (∃ c ∈ stream, c ≠ '\n') ∧ HasPower (nextText stream) := by
  have hpower {text : List Char} (hlen : ¬text.length < 23) : HasPower text ↔
      ((lineOf text).bind fun line => nextValues 2 (strtok line)).isSome := by
    rw [HasPower, or_iff_right hlen]
    cases lineOf text with
    | none => simp
    | some line => simp [nextValues_isSome, Nat.succ_le_iff]
  constructor
  · rintro ⟨fuel, watts, left, hrun⟩
    cases hskip : skipEmptyLines fuel ['\n'] stream with
    | none =>
      have hloops : (getWatts atof fuel).run (some stream) = .ok none (some stream) := by
        have hget : (get : Call (Option (List Char)) _).run (some stream) =
            .ok (some stream) (some stream) := rfl
        simp only [getWatts, EStateM.run_bind, hget, hskip]
        rfl
      rw [hloops] at hrun
      cases hrun
    | some r =>
      obtain ⟨hline, rfl⟩ := skipEmptyLines_eq_some hskip
      rw [getWatts_run atof hskip] at hrun
      refine ⟨hline, ?_⟩
      show HasPower (textOf (fgets 49 (stream.dropWhile (· = '\n'))).1)
      by_cases hlen : (textOf (fgets 49 (stream.dropWhile (· = '\n'))).1).length < 23
      · exact .inl hlen
      · rw [if_neg hlen] at hrun
        rw [hpower hlen]
        split at hrun
        · rename_i hdata
          rw [hdata]
          rfl
        · cases hrun
  · rintro ⟨hline, htext⟩
    obtain ⟨fuel, hskip⟩ := skipEmptyLines_returns hline
    refine ⟨fuel, ?_⟩
    rw [getWatts_run atof hskip]
    change HasPower (textOf (fgets 49 (stream.dropWhile (· = '\n'))).1) at htext
    by_cases hlen : (textOf (fgets 49 (stream.dropWhile (· = '\n'))).1).length < 23
    · rw [if_pos hlen]
      exact ⟨_, _, rfl⟩
    · rw [if_neg hlen]
      obtain ⟨data, hdata⟩ := Option.isSome_iff_exists.mp ((hpower hlen).mp htext)
      rw [hdata]
      exact ⟨_, _, rfl⟩

/-- At the end of the stream the loop goes on for ever, and a long line without commas leads to a
null pointer. -/
theorem getWatts_stuck :
    (∀ fuel, (getWatts (fun _ => (0 : ℕ)) fuel).run (some []) = .ok none (some [])) ∧
      (getWatts (fun _ => (0 : ℕ)) 2).run (some "5.010;1.200;6.012;1.001\n".toList) =
        .error .undefined (some []) := by
  refine ⟨fun fuel => ?_, by rfl⟩
  have hloop : skipEmptyLines fuel ['\n'] [] = none := by
    induction fuel with
    | zero => rfl
    | succ fuel ih => exact ih
  have hget : (get : Call (Option (List Char)) _).run (some []) = .ok (some []) (some []) := rfl
  simp only [getWatts, EStateM.run_bind, hget, hloop]
  rfl

end SmartPower2

end Mammut.Energy
