import EasyTrade.Core.Blocks

/-!
# The generated SQL files

`save_sql_file` and `dict_to_sql_values` of the user generator.  Texts are lists of
characters; a file is the text that is written to it, and a file that is read is the
text that is stored in it.
-/

namespace EasyTrade.UserGenerator

abbrev Text := List Char

/-- `SQL_INSERT_LIMIT`. -/
def sqlInsertLimit : ℕ := 1000

/-- A value of a row dictionary.  Of a `float`, and of an object that is neither a
string nor a number, only the text that `str` makes of it matters. -/
inductive Value where
  | int (value : ℤ)
  | float (printed : Text)
  | string (text : Text)
  | object (printed : Text)
  deriving DecidableEq

/-- `str` of an `int`. -/
def strOfInt : ℤ → Text
  | .ofNat n => Nat.toDigits 10 n
  | .negSucc n => '-' :: Nat.toDigits 10 (n + 1)

/-- `str(value)`. -/
def Value.str : Value → Text
  | int value => strOfInt value
  | float printed => printed
  | string text => text
  | object printed => printed

/-- `type(value) == int or type(value) == float`. -/
def Value.isNumber : Value → Bool
  | int _ => true
  | float _ => true
  | string _ => false
  | object _ => false

/-- A dictionary with its keys in the order in which they were inserted. -/
abbrev Dict := List (Text × Value)

/-- `str.lower`, as far as the comparison with `"id"` can see it: no letter outside
ASCII has `i` or `d` as its small form. -/
def lower (text : Text) : Text := text.map Char.toLower

/-- The loop of `dict_to_sql_values` over the keys. -/
def sqlValuesLoop (skipId : Bool) : (first : Bool) → Text → Dict → Text
  | _, result, [] => result
  | first, result, (key, value) :: rest =>
      if skipId ∧ lower key = ['i', 'd'] then sqlValuesLoop skipId first result rest
      else
        let result := if first then result else result ++ ",\n    ".toList
        let result :=
          if value.isNumber then result ++ value.str
          else result ++ ['"'] ++ value.str ++ ['"']
        sqlValuesLoop skipId false result rest

def dictToSqlValues (dict : Dict) (skipId : Bool) : Text :=
  sqlValuesLoop skipId true "(\n    ".toList dict ++ "\n)".toList

/-- A stored text, as text mode reads it: every kind of line end is read as `\n`. -/
def universalNewlines : Text → Text
  | '\r' :: '\n' :: rest => '\n' :: universalNewlines rest
  | '\r' :: rest => '\n' :: universalNewlines rest
  | char :: rest => char :: universalNewlines rest
  | [] => []

/-- The lines of a text, each one with its line end. -/
def lines : Text → List Text
  | [] => []
  | char :: rest =>
      if char = '\n' then [char] :: lines rest
      else
        match lines rest with
        | [] => [[char]]
        | line :: others => (char :: line) :: others

def readLinesFromFile (file : Text) : List Text := lines (universalNewlines file)

/-- The state of `write_file`: what has been written to it. -/
def write (written text : Text) : Text := written ++ text

def writelines (written : Text) (lines : List Text) : Text := lines.foldl write written

/-- The body of the loop of `save_sql_file`, for the element with this index. -/
def saveElem (data : List Dict) (sqlInsertFile : Text) (skipId : Bool) (written : Text)
    (numbered : Dict × ℕ) : Text :=
  let written :=
    if numbered.2 % sqlInsertLimit = 0 then
      writelines written (readLinesFromFile sqlInsertFile)
    else written
  let written := write written (dictToSqlValues numbered.1 skipId)
  if numbered.2 = data.length - 1 ∨ numbered.2 % sqlInsertLimit = sqlInsertLimit - 1 then
    write written ";\n".toList
  else write written ",\n".toList

def saveSqlFile (data : List Dict) (sqlCreateFile sqlInsertFile : Text) (skipId : Bool) :
    Text :=
  let written := writelines [] (readLinesFromFile sqlCreateFile)
  let written := data.zipIdx.foldl (saveElem data sqlInsertFile skipId) written
  write written "GO".toList

/-! ## Reading and writing lines -/

theorem flatten_lines (text : Text) : (lines text).flatten = text := by
  induction text with
  | nil => rfl
  | cons char rest ih =>
      rw [lines]
      split
      · rw [List.flatten_cons, ih]
        rfl
      · cases hlines : lines rest with
        | nil =>
            rw [hlines] at ih
            rw [← ih]
            rfl
        | cons line others =>
            rw [hlines] at ih
            rw [← ih]
            rfl

theorem writelines_eq (written : Text) (lines : List Text) :
    writelines written lines = written ++ lines.flatten := by
  induction lines generalizing written with
  | nil => exact (List.append_nil written).symm
  | cons line rest ih =>
      calc writelines written (line :: rest)
          = writelines (written ++ line) rest := rfl
        _ = written ++ line ++ rest.flatten := ih _
        _ = written ++ (line :: rest).flatten := by
            rw [List.flatten_cons, List.append_assoc]

/-- Writing the lines of a file that was read writes its text. -/
theorem writelines_read (written file : Text) :
    writelines written (readLinesFromFile file) = written ++ universalNewlines file := by
  rw [writelines_eq, readLinesFromFile, flatten_lines]

/-! ## The tuple of a row -/

/-- A value in a tuple: a number as it is, anything else in double quotes. -/
def Value.inTuple (value : Value) : Text :=
  if value.isNumber then value.str else '"' :: value.str ++ ['"']

/-- The values of a row in the order of its keys, without the id when it is skipped. -/
def rowValues (dict : Dict) (skipId : Bool) : List Value :=
  (dict.filter fun entry => ¬(skipId = true ∧ lower entry.1 = ['i', 'd'])).map Prod.snd

/-- A row as a tuple: its values between brackets, with commas between them. -/
def tuple (skipId : Bool) (dict : Dict) : Text :=
  "(\n    ".toList ++
    ",\n    ".toList.intercalate ((rowValues dict skipId).map Value.inTuple) ++ "\n)".toList

theorem rowValues_skip {key : Text} {value : Value} {rest : Dict} {skipId : Bool}
    (hskip : skipId = true ∧ lower key = ['i', 'd']) :
    rowValues ((key, value) :: rest) skipId = rowValues rest skipId := by
  rw [rowValues, List.filter_cons_of_neg (by simp [hskip]), rowValues]

theorem rowValues_keep {key : Text} {value : Value} {rest : Dict} {skipId : Bool}
    (hkeep : ¬(skipId = true ∧ lower key = ['i', 'd'])) :
    rowValues ((key, value) :: rest) skipId = value :: rowValues rest skipId := by
  rw [rowValues, List.filter_cons_of_pos (by simpa only [decide_eq_true_eq] using hkeep),
    List.map_cons, rowValues]

/-- The text of a value, as the loop appends it. -/
theorem append_inTuple (result : Text) (value : Value) :
    (if value.isNumber then result ++ value.str else result ++ ['"'] ++ value.str ++ ['"']) =
      result ++ value.inTuple := by
  rw [Value.inTuple]
  split
  · rfl
  · rw [List.append_assoc result, List.append_assoc result]
    rfl

/-- Elements joined by a separator are the first one and the others, each behind one. -/
theorem intercalate_cons_eq_flatMap (separator first : Text) (rest : List Text) :
    separator.intercalate (first :: rest) = first ++ rest.flatMap (separator ++ ·) := by
  induction rest generalizing first with
  | nil => rw [List.intercalate_singleton, List.flatMap_nil, List.append_nil]
  | cons next others ih =>
      rw [List.intercalate_cons_cons, ih, List.flatMap_cons]
      simp only [List.append_assoc]

/-- What the loop appends: each value behind a comma, the very first one without. -/
theorem sqlValuesLoop_append (skipId first : Bool) (result : Text) (dict : Dict) :
    sqlValuesLoop skipId first result dict =
      result ++ if first then
        ",\n    ".toList.intercalate ((rowValues dict skipId).map Value.inTuple)
      else (rowValues dict skipId).flatMap fun value => ",\n    ".toList ++ value.inTuple := by
  induction dict generalizing first result with
  | nil => cases first <;> exact (List.append_nil result).symm
  | cons entry rest ih =>
      obtain ⟨key, value⟩ := entry
      rw [sqlValuesLoop]
      by_cases hskip : skipId = true ∧ lower key = ['i', 'd']
      · rw [if_pos hskip, ih, rowValues_skip hskip]
      · rw [if_neg hskip, ih, rowValues_keep hskip, append_inTuple]
        cases first with
        | true =>
            simp only [if_true, List.map_cons, intercalate_cons_eq_flatMap, List.flatMap_map,
              List.append_assoc, Bool.false_eq_true, if_false]
        | false => simp [List.append_assoc]

/-- `dict_to_sql_values` writes the tuple of the row. -/
theorem dictToSqlValues_eq_tuple (dict : Dict) (skipId : Bool) :
    dictToSqlValues dict skipId = tuple skipId dict := by
  rw [dictToSqlValues, sqlValuesLoop_append, tuple, if_pos rfl]

/-! ## The file in blocks -/

/-- One block of rows as a statement: the header, the tuples with commas between them,
and a semicolon. -/
def insertStatement (sqlInsertFile : Text) (skipId : Bool) (block : List Dict) : Text :=
  universalNewlines sqlInsertFile ++ ",\n".toList.intercalate (block.map (tuple skipId)) ++
    ";\n".toList

theorem saveElem_eq (data : List Dict) (sqlInsertFile : Text) (skipId : Bool)
    (written : Text) (numbered : Dict × ℕ) :
    saveElem data sqlInsertFile skipId written numbered =
      written ++ Blocks.punctuated sqlInsertLimit data.length
        (universalNewlines sqlInsertFile) ",\n".toList ";\n".toList (tuple skipId) numbered := by
  simp only [saveElem, Blocks.punctuated, writelines_read, write, dictToSqlValues_eq_tuple]
  split <;> split <;> simp only [List.append_assoc, List.nil_append]

/-- A file is the text of the create file, then the rows in consecutive blocks of
`sqlInsertLimit`, all full but the last, each one as one insert statement, and `GO`. -/
theorem saved_in_blocks (data : List Dict) (sqlCreateFile sqlInsertFile : Text)
    (skipId : Bool) :
    ∃ blocks, Blocks.IsBlocks sqlInsertLimit data blocks ∧
      saveSqlFile data sqlCreateFile sqlInsertFile skipId =
        universalNewlines sqlCreateFile ++
          blocks.flatMap (insertStatement sqlInsertFile skipId) ++ "GO".toList := by
  obtain ⟨blocks, hblocks, hwritten⟩ :=
    Blocks.exists_blocks (universalNewlines sqlInsertFile) ",\n".toList ";\n".toList
      (tuple skipId) (by decide : 0 < sqlInsertLimit) data
  have hloop : saveElem data sqlInsertFile skipId = fun written numbered =>
      written ++ Blocks.punctuated sqlInsertLimit data.length
        (universalNewlines sqlInsertFile) ",\n".toList ";\n".toList
        (tuple skipId) numbered := by
    funext written numbered
    exact saveElem_eq data sqlInsertFile skipId written numbered
  refine ⟨blocks, hblocks, ?_⟩
  calc saveSqlFile data sqlCreateFile sqlInsertFile skipId
      = data.zipIdx.foldl (saveElem data sqlInsertFile skipId)
          (universalNewlines sqlCreateFile) ++ "GO".toList := by
        rw [saveSqlFile, writelines_read]
        rfl
    _ = universalNewlines sqlCreateFile ++ data.zipIdx.flatMap
          (Blocks.punctuated sqlInsertLimit data.length
            (universalNewlines sqlInsertFile) ",\n".toList ";\n".toList
            (tuple skipId)) ++ "GO".toList := by
        rw [hloop, List.foldl_append_eq_append, List.flatMap_def]
    _ = universalNewlines sqlCreateFile ++
          blocks.flatMap (insertStatement sqlInsertFile skipId) ++ "GO".toList := by
        rw [hwritten]
        rfl

end EasyTrade.UserGenerator
