import EasyTrade.Core.SqlTuple
import EasyTrade.UserGenerator.SqlFiles

/-!
# Reading generated values back

`dict_to_sql_values` puts strings in double quotes and escapes nothing, unlike the JSON
files that the generator saves besides.
-/

namespace EasyTrade.UserGenerator

open EasyTrade.SqlTuple

/-- What a value is for SQL; an object is what `str` makes of it. -/
def Value.literal : Value → Literal
  | int value => .int value
  | value => .string value.str

def Value.isFloat : Value → Bool
  | float _ => true
  | _ => false

/-- The values of a row in the order of their keys, without the id when it is skipped. -/
def rowLiterals (dict : Dict) (skipId : Bool) : List Literal :=
  (dict.filter fun entry => ¬(skipId = true ∧ lower entry.1 = ['i', 'd'])).map (·.2.literal)

/-- The white space in front of a value, and at the end. -/
def gap : Text := ['\n', ' ', ' ', ' ', ' ']

def close : Text := ['\n']

theorem isSpace_gap : ∀ c ∈ gap, isSpace c = true :=
  List.all_eq_true.mp (by decide)

theorem isSpace_close : ∀ c ∈ close, isSpace c = true :=
  List.all_eq_true.mp (by decide)

theorem strOfInt_eq (value : ℤ) : strOfInt value = decimal value := by
  cases value <;> rfl

/-- The text of a value in a tuple. -/
theorem written_literal {value : Value} (hfloat : value.isFloat = false) (result : Text) :
    (if value.isNumber then result ++ value.str else result ++ ['"'] ++ value.str ++ ['"']) =
      result ++ value.literal.written := by
  cases value with
  | int value =>
      change result ++ strOfInt value = _
      rw [strOfInt_eq]
      rfl
  | float printed => cases hfloat
  | string text =>
      change result ++ ['"'] ++ text ++ ['"'] = result ++ ('"' :: text ++ ['"'])
      rw [List.append_assoc result, List.append_assoc result]
      rfl
  | object printed =>
      change result ++ ['"'] ++ printed ++ ['"'] = result ++ ('"' :: printed ++ ['"'])
      rw [List.append_assoc result, List.append_assoc result]
      rfl

/-- What comes after a value: the other values, or the end. -/
def continued (literals : List Literal) : Text :=
  if literals = [] then close ++ [')'] else ',' :: (gap ++ listed gap close literals)

theorem listed_eq (literal : Literal) (literals : List Literal) :
    listed gap close (literal :: literals) = literal.written ++ continued literals := by
  rw [continued]
  split_ifs with hnil
  · rw [hnil, listed_singleton]
  · exact listed_cons gap close literal hnil

/-- The loop, which has written a value before unless `first`. -/
theorem sqlValuesLoop_eq {dict : Dict} {skipId : Bool}
    (hvalues : ∀ entry ∈ dict, entry.2.isFloat = false) (first : Bool) (result : Text) :
    sqlValuesLoop skipId first result dict ++ "\n)".toList =
      result ++ if first then listed gap close (rowLiterals dict skipId)
        else continued (rowLiterals dict skipId) := by
  induction dict generalizing first result with
  | nil => cases first <;> rfl
  | cons entry rest ih =>
      obtain ⟨key, value⟩ := entry
      obtain ⟨hvalue, hrest⟩ := List.forall_mem_cons.mp hvalues
      rw [sqlValuesLoop]
      by_cases hskip : skipId = true ∧ lower key = ['i', 'd']
      · have hrow : rowLiterals ((key, value) :: rest) skipId = rowLiterals rest skipId := by
          rw [rowLiterals, List.filter_cons_of_neg (by simp [hskip]), rowLiterals]
        rw [if_pos hskip, hrow, ih hrest]
      · have hrow : rowLiterals ((key, value) :: rest) skipId =
            value.literal :: rowLiterals rest skipId := by
          rw [rowLiterals, List.filter_cons_of_pos (by simpa only [decide_eq_true_eq] using hskip),
            List.map_cons, rowLiterals]
        rw [if_neg hskip, ih hrest, hrow, written_literal hvalue]
        cases first with
        | true =>
            change result ++ value.literal.written ++ continued _ = result ++ listed gap close _
            rw [listed_eq, List.append_assoc]
        | false =>
            have hcontinued : continued (value.literal :: rowLiterals rest skipId) =
                ",\n    ".toList ++ listed gap close (value.literal :: rowLiterals rest skipId) :=
              if_neg (List.cons_ne_nil _ _)
            change result ++ ",\n    ".toList ++ value.literal.written ++
              continued (rowLiterals rest skipId) =
                result ++ continued (value.literal :: rowLiterals rest skipId)
            rw [hcontinued, listed_eq, List.append_assoc, List.append_assoc]

theorem dictToSqlValues_eq {dict : Dict} {skipId : Bool}
    (hvalues : ∀ entry ∈ dict, entry.2.isFloat = false) :
    dictToSqlValues dict skipId = '(' :: gap ++ listed gap close (rowLiterals dict skipId) := by
  rw [dictToSqlValues, sqlValuesLoop_eq hvalues]
  rfl

/-- Generated values are read back as they were written exactly when none of the texts
among them has a quote, or a backslash other than in `\%` and `\_`. -/
theorem values_read_back_iff {dict : Dict} {skipId : Bool}
    (hvalues : ∀ entry ∈ dict, entry.2.isFloat = false) :
    readTuple (dictToSqlValues dict skipId) = some (rowLiterals dict skipId) ↔
      ∀ literal ∈ rowLiterals dict skipId, literal.isPlain = true := by
  rw [dictToSqlValues_eq hvalues]
  exact readTuple_listed_iff isSpace_gap isSpace_close

namespace Sample

/-- A few fields of an account. -/
def accountRow (address : String) : Dict := [("id".toList, .int 7),
  ("first_name".toList, .string "Jane".toList), ("address".toList, .string address.toList),
  ("account_active".toList, .int 1)]

end Sample

theorem values_read_back_box :
    readTuple (dictToSqlValues (Sample.accountRow "Box 13, Main Street (left)") true) =
      some [.string "Jane".toList, .string "Box 13, Main Street (left)".toList, .int 1] :=
  (values_read_back_iff (by decide)).mpr (by decide +kernel)

/-- An address with quotes ends its literal, and what comes after is no tuple. -/
theorem values_not_read_back :
    (∀ entry ∈ Sample.accountRow "\"Box\" 13", entry.2.isFloat = false) ∧
    readTuple (dictToSqlValues (Sample.accountRow "\"Box\" 13") true) = none ∧
    ¬readTuple (dictToSqlValues (Sample.accountRow "\"Box\" 13") true) =
      some (rowLiterals (Sample.accountRow "\"Box\" 13") true) := by
  have hnone : readTuple (dictToSqlValues (Sample.accountRow "\"Box\" 13") true) = none := by
    decide +kernel
  refine ⟨by decide, hnone, ?_⟩
  rw [hnone]
  exact nofun

end EasyTrade.UserGenerator
