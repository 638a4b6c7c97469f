import TitanClaw.Lib.Text

/-! # Reading a file

The lines of a file, or some of them, with their numbers. -/

namespace TitanClaw.Tools

open Text List

def maxReadSize : Nat := 1024 * 1024

structure ReadOutput where
  content : String
  totalLines : Nat
  linesShown : Nat

variable (content : String) (offset limit : Option UInt64)

/-- A line with its number, six characters wide. -/
def numbered (number : Nat) (line : String) : String :=
  String.ofList (List.leftpad 6 ' ' (toString number).toList) ++ "│ " ++ line

/-- `ReadFileTool::execute` on a file that can be read. `none` is a panic: a sum that overflows,
or a slice of the lines that does not lie within them. -/
def readFile : Option (Except String ReadOutput) :=
  if maxReadSize < len content then
    some (.error ("File too large (" ++ toString (len content) ++ " bytes). Maximum is "
      ++ toString maxReadSize ++ " bytes. Use offset/limit for partial reads."))
  else
    let lines := lines content
    let startLine := (offset.getD 0).toNat - 1
    let endLine :=
      match limit with
      | some lim =>
          if startLine + lim.toNat < 2 ^ 64 then some (min (startLine + lim.toNat) lines.length)
          else none
      | none => some lines.length
    endLine.bind fun endLine =>
      if startLine ≤ endLine then
        let selected := ((lines.drop startLine).take (endLine - startLine)).zipIdx.map
          fun (line, i) => numbered (startLine + i + 1) line
        some (.ok ⟨"\n".intercalate selected, lines.length, endLine - startLine⟩)
      else none

/-- The numbered lines from the offset on, no more than the limit. -/
def wanted : List (String × Nat) :=
  let rest := ((lines content).zipIdx 1).drop ((offset.getD 1).toNat - 1)
  match limit with
  | some lim => rest.take lim.toNat
  | none => rest

def ReturnsWanted : Prop :=
  let shown := wanted content offset limit
  readFile content offset limit = some (.ok
    ⟨"\n".intercalate (shown.map fun (line, number) => numbered number line),
      (lines content).length, shown.length⟩)

theorem selected_eq (l : List String) (start n : Nat) :
    ((l.drop start).take n).zipIdx.map (fun (line, i) => numbered (start + i + 1) line)
      = (((l.zipIdx 1).drop start).take n).map fun (line, number) => numbered number line := by
  refine ext_getElem (by simp) fun i _ _ => ?_
  simp only [getElem_map, getElem_zipIdx, getElem_take, getElem_drop]
  congr 1
  omega

/-- **The lines asked for are returned** exactly if the file is not too large, the offset is at
most the line behind its last one, and the line that the limit leads to has a number. -/
theorem returnsWanted_iff :
    ReturnsWanted content offset limit ↔ len content ≤ maxReadSize
      ∧ (offset.getD 1).toNat - 1 ≤ (lines content).length
      ∧ ∀ lim, limit = some lim → (offset.getD 1).toNat - 1 + lim.toNat < 2 ^ 64 := by
  have hstart : (offset.getD 0).toNat - 1 = (offset.getD 1).toNat - 1 := by cases offset <;> rfl
  unfold ReturnsWanted readFile wanted
  simp only [hstart]
  by_cases hsize : len content ≤ maxReadSize
  · rw [if_neg (Nat.not_lt.mpr hsize)]
    generalize (offset.getD 1).toNat - 1 = start
    by_cases hin : start ≤ (lines content).length
    · cases limit with
      | none =>
        have hall := take_of_length_le (l := ((lines content).zipIdx 1).drop start)
          (i := (lines content).length - start) (by simp)
        simp only [hin, if_true, Option.bind_some, selected_eq, hall]
        simp [hsize]
      | some lim =>
        by_cases hlim : start + lim.toNat < 2 ^ 64
        · have hcut : (((lines content).zipIdx 1).drop start).take
              (min (start + lim.toNat) (lines content).length - start)
                = (((lines content).zipIdx 1).drop start).take lim.toNat := by
            rw [take_eq_take_iff, length_drop, length_zipIdx]
            omega
          simp only [hsize, hin, hlim, if_true, Option.bind_some, selected_eq, hcut]
          simp
          omega
        · simp [hlim, -Nat.reducePow]
    · cases limit with
      | none => simp [hin]
      | some lim =>
        have hmin : ¬ start ≤ min (start + lim.toNat) (lines content).length := by omega
        by_cases hlim : start + lim.toNat < 2 ^ 64 <;>
          simp [hin, hlim, hmin, -Nat.reducePow]
  · simp [hsize, Nat.not_le.mp hsize]

theorem offset_behind_end :
    readFile "one line" (some 10) none = none ∧ ¬ ReturnsWanted "one line" (some 10) none := by
  have hpanic : readFile "one line" (some 10) none = none := by decide
  refine ⟨hpanic, fun h => ?_⟩
  rw [ReturnsWanted, hpanic] at h
  cases h

end TitanClaw.Tools
