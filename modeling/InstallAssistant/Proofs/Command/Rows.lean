import InstallAssistant.Command.Sweep
import InstallAssistant.Proofs.Text
import InstallAssistant.Proofs.Text.Utf8
import InstallAssistant.Proofs.Training.Row

/-!
# InstallAssistant.Proofs.Command.Rows

Files of rows.  A row is one line that is not blank, so a file has as many examples
as rows were written (`exampleCount_rowLines`), and a reader of lines gets the rows
back, in their order (`readRows?_eq`).
-/

namespace InstallAssistant.Command

open Host Training

theorem toList_rowLines (rows : List Row) :
    (rowLines rows).toList = (rows.map fun r => r.toJson.print).flatMap (· ++ ['\n']) := by
  simp [rowLines, String.toList_join, List.flatMap_map, Json.compact]

/-- **Each row is a line.** -/
theorem lines_rowLines (rows : List Row) :
    Text.lines (rowLines rows).toList = rows.map fun r => r.toJson.print := by
  rw [toList_rowLines]
  refine Text.lines_flatMap fun line hline => ?_
  obtain ⟨r, _, rfl⟩ := List.mem_map.mp hline
  have hone := Json.oneLine_print r.toJson r.finite_toJson
  exact ⟨hone.notMem (by decide), hone.notMem (by decide)⟩

theorem isBlankText_row (r : Row) : Text.isBlankText r.toJson.print = false := rfl

/-- **A file has as many examples as rows.** -/
theorem exampleCount_rowLines (rows : List Row) : exampleCount (rowLines rows) = rows.length := by
  rw [exampleCount, lines_rowLines, List.countP_map]
  exact List.countP_eq_length.mpr fun r _ => by simp [isBlankText_row]

/-- What a reader of lines gets from a file: a row or nothing for each line. -/
def readRows? (d : Directory) (path : String) : Option (List (Option Row)) :=
  ((d.read? path).bind Text.Utf8.decode?).map fun text =>
    (Text.lines text).map fun line => Row.reader.parse? (String.ofList line)

/-- **Rows that were written are read back**, but for where their prompts end. -/
theorem readRows?_eq {d : Directory} {path : String} {rows : List Row}
    (h : d.read? path = some (Text.Utf8.encode (rowLines rows))) (hfit : ∀ r ∈ rows, r.LabelsFit) :
    readRows? d path = some (rows.map fun r => some { r with promptLength := 0 }) := by
  rw [readRows?, h, Option.bind_some, Text.Utf8.encode, Text.Utf8.decode?_encodeChars,
    Option.map_some, lines_rowLines, List.map_map]
  congr 1
  exact List.map_congr_left fun r hr => Row.parse?_compact (hfit r hr)

end InstallAssistant.Command
