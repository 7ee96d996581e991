import Mathlib

/-!
# Value tuples of SQL

A reader of tuples such as `(1, "two")`, with string literals in double quotes.  In a
literal two quotes stand for one, and a backslash with a character stands for what it does
in MySQL.  A text between quotes that needs no escaping is read as it stands.  A text that
needs it makes the reader go on beyond the text or stop inside of it, and no choice of the
other values lets the tuple be read as it was written.
-/

namespace EasyTrade.SqlTuple

inductive Literal where
  | int (value : ℤ)
  | string (text : List Char)
  deriving DecidableEq, Repr

/-! ## Reading -/

/-- What a backslash and a character stand for. -/
def escaped : Char → List Char
  | '0' => ['\x00']
  | 'b' => ['\x08']
  | 'n' => ['\n']
  | 'r' => ['\r']
  | 't' => ['\t']
  | 'Z' => ['\x1a']
  | '%' => ['\\', '%']
  | '_' => ['\\', '_']
  | c => [c]

/-- The text of a string literal after its first quote, and what follows its last quote. -/
def readString : List Char → Option (List Char × List Char)
  | [] => none
  | '"' :: '"' :: rest => (readString rest).map fun read => ('"' :: read.1, read.2)
  | '"' :: rest => some ([], rest)
  | '\\' :: c :: rest => (readString rest).map fun read => (escaped c ++ read.1, read.2)
  | c :: rest => (readString rest).map fun read => (c :: read.1, read.2)

def readNat (text : List Char) : Option (ℕ × List Char) :=
  if text.takeWhile Char.isDigit = [] then none
  else some (Nat.ofDigitChars 10 (text.takeWhile Char.isDigit) 0, text.dropWhile Char.isDigit)

def readLiteral : List Char → Option (Literal × List Char)
  | '"' :: rest => (readString rest).map fun read => (.string read.1, read.2)
  | '-' :: rest => (readNat rest).map fun read => (.int (-read.1), read.2)
  | text => (readNat text).map fun read => (.int read.1, read.2)

def isSpace (c : Char) : Bool := c = ' ' || c = '\n' || c = '\t' || c = '\r'

def skipSpace (text : List Char) : List Char := text.dropWhile isSpace

/-- The literals up to the closing parenthesis, and what follows it.  The fuel bounds their
number. -/
def readLiterals : (fuel : ℕ) → List Char → Option (List Literal × List Char)
  | 0, _ => none
  | fuel + 1, text =>
      match readLiteral text with
      | none => none
      | some (literal, rest) =>
          match skipSpace rest with
          | ',' :: rest =>
              (readLiterals fuel (skipSpace rest)).map fun read => (literal :: read.1, read.2)
          | ')' :: after => some ([literal], after)
          | _ => none

/-- A tuple and nothing else. -/
def readTuple (text : List Char) : Option (List Literal) :=
  match skipSpace text with
  | '(' :: rest =>
      match skipSpace rest with
      | ')' :: after => if skipSpace after = [] then some [] else none
      | rest =>
          match readLiterals rest.length rest with
          | some (literals, after) => if skipSpace after = [] then some literals else none
          | none => none
  | _ => none

/-! ## Writing without escapes -/

def decimal : ℤ → List Char
  | .ofNat n => Nat.toDigits 10 n
  | .negSucc n => '-' :: Nat.toDigits 10 (n + 1)

/-- The text of a literal, with nothing escaped. -/
def Literal.written : Literal → List Char
  | int value => decimal value
  | string text => '"' :: text ++ ['"']

/-- A text that needs no escaping: it has no quote, and each of its backslashes comes with
a character in a pair that stands for itself. -/
def isPlain : List Char → Bool
  | [] => true
  | '"' :: _ => false
  | ['\\'] => false
  | '\\' :: c :: rest => decide (escaped c = ['\\', c]) && isPlain rest
  | _ :: rest => isPlain rest

def Literal.isPlain : Literal → Bool
  | int _ => true
  | string text => SqlTuple.isPlain text

/-- Literals with commas and gaps between them, and the closing parenthesis. -/
def listed (gap close : List Char) : List Literal → List Char
  | [] => close ++ [')']
  | [literal] => literal.written ++ close ++ [')']
  | literal :: literals => literal.written ++ ',' :: gap ++ listed gap close literals

/-! ## Strings -/

section Strings

variable {text after : List Char}

theorem length_escaped (c : Char) :
    (escaped c).length ≤ 2 ∧ ((escaped c).length = 2 → escaped c = ['\\', c]) := by
  unfold escaped
  split <;> simp

theorem isPlain_cons {c : Char} (hquote : c ≠ '"') (hbackslash : c ≠ '\\') (rest : List Char) :
    isPlain (c :: rest) = isPlain rest := by
  rw [isPlain]
  · exact hquote
  · exact fun heq => absurd heq hbackslash
  · exact fun _ _ heq => absurd heq hbackslash

/-- The reader consumes at least as much as it returns, and only a plain text is as long as
what is read for it. -/
theorem readString_consumes {read : List Char} (hread : readString text = some (read, after)) :
    ∃ body, text = body ++ '"' :: after ∧ read.length ≤ body.length ∧
      (read.length = body.length → read = body ∧ isPlain body = true) := by
  fun_induction readString text generalizing read with
  | case1 => cases hread
  | case2 rest ih =>
      obtain ⟨⟨inner, after'⟩, hinner, hresult⟩ := Option.map_eq_some_iff.mp hread
      cases hresult
      obtain ⟨body, rfl, hlength, -⟩ := ih hinner
      refine ⟨'"' :: '"' :: body, rfl, ?_, fun hequal => ?_⟩
      · simp only [List.length_cons]
        omega
      · simp only [List.length_cons] at hequal
        omega
  | case3 rest _ =>
      cases hread
      exact ⟨[], rfl, le_rfl, fun _ => ⟨rfl, rfl⟩⟩
  | case4 c rest ih =>
      obtain ⟨⟨inner, after'⟩, hinner, hresult⟩ := Option.map_eq_some_iff.mp hread
      cases hresult
      obtain ⟨body, rfl, hlength, hplain⟩ := ih hinner
      obtain ⟨hshort, hpair⟩ := length_escaped c
      refine ⟨'\\' :: c :: body, rfl, ?_, fun hequal => ?_⟩
      · simp only [List.length_append, List.length_cons]
        omega
      · simp only [List.length_append, List.length_cons] at hequal
        have hself := hpair (by omega)
        obtain ⟨hinner, hbody⟩ := hplain (by omega)
        refine ⟨by rw [hself, hinner]; rfl, ?_⟩
        rw [isPlain, hbody, Bool.and_true]
        exact decide_eq_true hself
  | case5 c rest hdoubled hquote hbackslash ih =>
      obtain ⟨⟨inner, after'⟩, hinner, hresult⟩ := Option.map_eq_some_iff.mp hread
      cases hresult
      obtain ⟨body, rfl, hlength, hplain⟩ := ih hinner
      refine ⟨c :: body, rfl, Nat.succ_le_succ hlength, fun hequal => ?_⟩
      obtain ⟨hinner, hbody⟩ := hplain (Nat.succ.inj hequal)
      refine ⟨congrArg (c :: ·) hinner, ?_⟩
      rw [isPlain_cons (fun heq => hquote heq) fun heq => ?_]
      · exact hbody
      · cases body with
        | nil => exact hbackslash _ _ heq rfl
        | cons next rest => exact hbackslash _ _ heq rfl

theorem readString_cons {c : Char} (hquote : c ≠ '"') (hbackslash : c ≠ '\\')
    (rest : List Char) : readString (c :: rest) =
      (readString rest).map fun read => (c :: read.1, read.2) := by
  rw [readString]
  · exact fun _ heq => absurd heq hquote
  · exact hquote
  · exact fun _ _ heq => absurd heq hbackslash

/-- A plain text is read as it stands. -/
theorem readString_plain (hplain : isPlain text = true) (hafter : after.head? ≠ some '"') :
    readString (text ++ '"' :: after) = some (text, after) := by
  fun_induction isPlain text with
  | case1 =>
      cases after with
      | nil => rfl
      | cons c rest =>
          rw [List.nil_append, readString]
          exact fun _ heq => hafter (congrArg List.head? heq)
  | case2 => cases hplain
  | case3 => cases hplain
  | case4 c rest ih =>
      obtain ⟨hself, hrest⟩ := Bool.and_eq_true_iff.mp hplain
      rw [List.cons_append, List.cons_append, readString, ih hrest, of_decide_eq_true hself]
      rfl
  | case5 c rest hquote hsingle hbackslash ih =>
      have hother : c ≠ '\\' := fun heq => by
        cases rest with
        | nil => exact hsingle heq rfl
        | cons next rest => exact hbackslash next rest heq rfl
      rw [List.cons_append, readString_cons hquote hother, ih hplain]
      rfl

end Strings

/-! ## Numbers -/

section Numbers

variable {text after : List Char}

theorem ofDigitChars_lt {digits : List Char} (hdigits : ∀ c ∈ digits, c.isDigit = true) :
    Nat.ofDigitChars 10 digits 0 < 10 ^ digits.length := by
  induction digits with
  | nil => exact Nat.one_pos
  | cons c rest ih =>
      have hrest := ih fun other hother => hdigits other (List.mem_cons_of_mem _ hother)
      have hc : c.toNat - '0'.toNat ≤ 9 := by
        have hdigit := hdigits c List.mem_cons_self
        simp only [Char.isDigit, Bool.and_eq_true, decide_eq_true_eq] at hdigit
        have hhigh : c.toNat ≤ 57 := hdigit.2
        exact Nat.sub_le_sub_right hhigh 48
      calc Nat.ofDigitChars 10 (c :: rest) 0
          = 10 ^ rest.length * (c.toNat - '0'.toNat) + Nat.ofDigitChars 10 rest 0 := by
            rw [Nat.ofDigitChars_cons, Nat.ofDigitChars_eq_ofDigitChars_zero, Nat.mul_zero,
              Nat.zero_add]
        _ < 10 ^ rest.length * 9 + 10 ^ rest.length :=
            Nat.add_lt_add_of_le_of_lt (Nat.mul_le_mul_left _ hc) hrest
        _ = 10 ^ (rest.length + 1) := by ring

/-- No number is written in more digits than it was read from. -/
theorem readNat_consumes {n : ℕ} (hread : readNat text = some (n, after)) :
    ∃ token last, text = token ++ last :: after ∧ last.isDigit = true ∧
      (Nat.toDigits 10 n).length ≤ token.length + 1 := by
  rw [readNat] at hread
  split_ifs at hread with hnone
  cases hread
  set digits := text.takeWhile Char.isDigit with hdigits
  have hall : ∀ c ∈ digits, c.isDigit = true := fun c hc => List.mem_takeWhile_imp hc
  have hsplit := List.dropLast_append_getLast hnone
  have hlength : digits.length = digits.dropLast.length + 1 := by
    conv_lhs => rw [← hsplit]
    rw [List.length_append, List.length_singleton]
  refine ⟨digits.dropLast, digits.getLast hnone, ?_, hall _ (List.getLast_mem hnone), ?_⟩
  · calc text = digits ++ text.dropWhile Char.isDigit := List.takeWhile_append_dropWhile.symm
      _ = digits.dropLast ++ [digits.getLast hnone] ++ text.dropWhile Char.isDigit := by
          rw [hsplit]
      _ = digits.dropLast ++ digits.getLast hnone :: text.dropWhile Char.isDigit := by
          rw [List.append_assoc, List.singleton_append]
  · rw [← hlength, Nat.length_toDigits_le_iff (by decide) (List.length_pos_iff.mpr hnone)]
    exact ofDigitChars_lt hall

/-- What follows a literal does not belong to it. -/
def Ends (after : List Char) : Prop := ∀ c ∈ after.head?, c ≠ '"' ∧ c.isDigit = false

theorem readNat_digits (n : ℕ) (hafter : Ends after) :
    readNat (Nat.toDigits 10 n ++ after) = some (n, after) := by
  have hdigits : ∀ c ∈ Nat.toDigits 10 n, c.isDigit = true := fun c hc =>
    Nat.isDigit_of_mem_toDigits (by decide) (by decide) hc
  have htake : after.takeWhile Char.isDigit = [] ∧ after.dropWhile Char.isDigit = after := by
    cases after with
    | nil => exact ⟨rfl, rfl⟩
    | cons c rest =>
        have hc := (hafter c rfl).2
        exact ⟨List.takeWhile_cons_of_neg (by simp [hc]), List.dropWhile_cons_of_neg (by simp [hc])⟩
  rw [readNat, List.takeWhile_append_of_pos hdigits, List.dropWhile_append_of_pos hdigits,
    htake.1, htake.2, List.append_nil, if_neg Nat.toDigits_ne_nil, Nat.ofDigitChars_ten_toDigits]

theorem length_decimal_neg (n : ℕ) :
    (decimal (-n)).length ≤ (Nat.toDigits 10 n).length + 1 := by
  cases n with
  | zero => exact Nat.le_succ _
  | succ n => exact le_rfl

end Numbers

/-! ## Literals -/

section Literals

variable {text after : List Char} {literal : Literal}

theorem isSpace_of_isDigit {c : Char} (hdigit : c.isDigit = true) : isSpace c = false := by
  by_contra hspace
  simp only [isSpace, Bool.not_eq_false, Bool.or_eq_true, decide_eq_true_eq] at hspace
  rcases hspace with ((rfl | rfl) | rfl) | rfl <;> cases hdigit

theorem readLiteral_consumes (hread : readLiteral text = some (literal, after)) :
    ∃ token last, text = token ++ last :: after ∧ isSpace last = false ∧
      literal.written.length ≤ token.length + 1 ∧
      (literal.written.length = token.length + 1 → literal.isPlain = true) := by
  unfold readLiteral at hread
  split at hread
  · obtain ⟨⟨inner, after'⟩, hinner, hresult⟩ := Option.map_eq_some_iff.mp hread
    cases hresult
    obtain ⟨body, rfl, hlength, hplain⟩ := readString_consumes hinner
    refine ⟨'"' :: body, '"', rfl, rfl, ?_, fun hequal => ?_⟩
    · simp only [Literal.written, List.length_append, List.length_cons, List.length_nil]
      omega
    · simp only [Literal.written, List.length_append, List.length_cons, List.length_nil] at hequal
      obtain ⟨hsame, hbody⟩ := hplain (by omega)
      rw [Literal.isPlain, hsame]
      exact hbody
  · obtain ⟨⟨n, after'⟩, hinner, hresult⟩ := Option.map_eq_some_iff.mp hread
    cases hresult
    obtain ⟨token, last, rfl, hdigit, hlength⟩ := readNat_consumes hinner
    exact ⟨'-' :: token, last, rfl, isSpace_of_isDigit hdigit,
      (length_decimal_neg n).trans (Nat.succ_le_succ hlength), fun _ => rfl⟩
  · obtain ⟨⟨n, after'⟩, hinner, hresult⟩ := Option.map_eq_some_iff.mp hread
    cases hresult
    obtain ⟨token, last, htext, hdigit, hlength⟩ := readNat_consumes hinner
    exact ⟨token, last, htext, isSpace_of_isDigit hdigit, hlength, fun _ => rfl⟩

theorem exists_digits (n : ℕ) :
    ∃ d ds, Nat.toDigits 10 n = d :: ds ∧ d.isDigit = true := by
  cases hdigits : Nat.toDigits 10 n with
  | nil => exact absurd hdigits Nat.toDigits_ne_nil
  | cons d ds =>
      have hmem : d ∈ Nat.toDigits 10 n := hdigits ▸ List.mem_cons_self
      exact ⟨d, ds, rfl, Nat.isDigit_of_mem_toDigits (by decide) (by decide) hmem⟩

theorem readLiteral_digit {c : Char} (hdigit : c.isDigit = true) (rest : List Char) :
    readLiteral (c :: rest) =
      (readNat (c :: rest)).map fun read => (.int read.1, read.2) := by
  rw [readLiteral]
  · intro _ heq
    cases heq
    cases hdigit
  · intro _ heq
    cases heq
    cases hdigit

theorem readLiteral_written (hplain : literal.isPlain = true) (hafter : Ends after) :
    readLiteral (literal.written ++ after) = some (literal, after) := by
  cases literal with
  | string text =>
      have hhead : after.head? ≠ some '"' := fun hquote => (hafter '"' hquote).1 rfl
      have hwritten : (Literal.string text).written ++ after = '"' :: (text ++ '"' :: after) := by
        rw [Literal.written, List.cons_append, List.cons_append, List.append_assoc,
          List.singleton_append]
      rw [hwritten, readLiteral, readString_plain hplain hhead]
      rfl
  | int value =>
      cases value with
      | ofNat n =>
          have hdigits := readNat_digits n hafter
          obtain ⟨d, ds, hwritten, hdigit⟩ := exists_digits n
          change readLiteral (Nat.toDigits 10 n ++ after) = _
          rw [hwritten, List.cons_append] at hdigits ⊢
          rw [readLiteral_digit hdigit, hdigits]
          rfl
      | negSucc n =>
          have hdigits := readNat_digits (n + 1) hafter
          change readLiteral ('-' :: (Nat.toDigits 10 (n + 1) ++ after)) = _
          rw [readLiteral, hdigits]
          rfl

/-- A literal does not begin as a space or a closing parenthesis. -/
theorem exists_written (literal : Literal) :
    ∃ c rest, literal.written = c :: rest ∧ isSpace c = false ∧ c ≠ ')' := by
  cases literal with
  | string text => exact ⟨'"', text ++ ['"'], rfl, rfl, by decide⟩
  | int value =>
      cases value with
      | ofNat n =>
          obtain ⟨d, ds, hwritten, hdigit⟩ := exists_digits n
          refine ⟨d, ds, hwritten, isSpace_of_isDigit hdigit, ?_⟩
          rintro rfl
          cases hdigit
      | negSucc n => exact ⟨'-', Nat.toDigits 10 (n + 1), rfl, rfl, by decide⟩

end Literals

/-! ## Tuples -/

section Tuples

variable {gap close text rest tail after : List Char} {fuel : ℕ} {literal : Literal}
variable {literals : List Literal}

theorem skipSpace_append {spaces : List Char} (hspaces : ∀ c ∈ spaces, isSpace c = true)
    (text : List Char) : skipSpace (spaces ++ text) = skipSpace text :=
  List.dropWhile_append_of_pos hspaces

theorem skipSpace_cons {c : Char} (hc : isSpace c = false) (rest : List Char) :
    skipSpace (c :: rest) = c :: rest :=
  List.dropWhile_cons_of_neg (by simp [hc])

/-- A suffix that does not begin as a space begins after the spaces. -/
theorem suffix_of_spaces {spaces : List Char} {c : Char}
    (hspaces : ∀ c ∈ spaces, isSpace c = true) (hc : isSpace c = false)
    (hsuffix : c :: rest <:+ spaces ++ tail) : c :: rest <:+ tail := by
  induction spaces with
  | nil => exact hsuffix
  | cons space spaces ih =>
      rw [List.cons_append, List.suffix_cons_iff] at hsuffix
      rcases hsuffix with hwhole | hrest
      · have hspace := hspaces space List.mem_cons_self
        rw [← (List.cons.inj hwhole).1, hc] at hspace
        cases hspace
      · exact ih (fun other hother => hspaces other (List.mem_cons_of_mem _ hother)) hrest

theorem readLiterals_cases (hread : readLiterals (fuel + 1) text = some (literals, after)) :
    ∃ literal rest, readLiteral text = some (literal, rest) ∧
      (skipSpace rest = ')' :: after ∧ literals = [literal] ∨
        ∃ next others, skipSpace rest = ',' :: next ∧
          readLiterals fuel (skipSpace next) = some (others, after) ∧
          literals = literal :: others) := by
  rw [readLiterals] at hread
  split at hread
  · cases hread
  · rename_i literal rest hliteral
    refine ⟨literal, rest, hliteral, ?_⟩
    split at hread
    · rename_i next hnext
      obtain ⟨⟨others, after'⟩, hothers, hresult⟩ := Option.map_eq_some_iff.mp hread
      cases hresult
      exact Or.inr ⟨next, others, hnext, hothers, rfl⟩
    · rename_i after' hclosed
      cases hread
      exact Or.inl ⟨hclosed, rfl⟩
    · cases hread

theorem readLiterals_ne_nil (hread : readLiterals fuel text = some (literals, after)) :
    literals ≠ [] := by
  cases fuel with
  | zero => cases hread
  | succ fuel =>
      obtain ⟨literal, rest, -, ⟨-, rfl⟩ | ⟨next, others, -, -, rfl⟩⟩ := readLiterals_cases hread
      · exact List.cons_ne_nil _ _
      · exact List.cons_ne_nil _ _

theorem listed_singleton (gap close : List Char) (literal : Literal) :
    listed gap close [literal] = literal.written ++ (close ++ [')']) :=
  List.append_assoc _ _ _

theorem listed_cons (gap close : List Char) (literal : Literal) (hne : literals ≠ []) :
    listed gap close (literal :: literals) =
      literal.written ++ ',' :: (gap ++ listed gap close literals) := by
  rw [listed]
  · rw [List.append_assoc, List.cons_append]
  · exact hne

theorem exists_listed (gap close : List Char) (hne : literals ≠ []) :
    ∃ c rest, listed gap close literals = c :: rest ∧ isSpace c = false ∧ c ≠ ')' := by
  cases literals with
  | nil => exact absurd rfl hne
  | cons literal others =>
      obtain ⟨c, rest, hwritten, hc⟩ := exists_written literal
      by_cases hothers : others = []
      · refine ⟨c, rest ++ (close ++ [')']), ?_, hc⟩
        rw [hothers, listed_singleton, hwritten, List.cons_append]
      · refine ⟨c, rest ++ ',' :: (gap ++ listed gap close others), ?_, hc⟩
        rw [listed_cons gap close literal hothers, hwritten, List.cons_append]

/-- A literal that is read where it was written or later is read up to its end or further,
and up to its end only if it is plain and read where it was written. -/
theorem suffix_of_readLiteral (hsuffix : text <:+ literal.written ++ tail)
    (hread : readLiteral text = some (literal, rest)) :
    rest <:+ tail ∧ (rest = tail → text = literal.written ++ tail ∧ literal.isPlain = true) ∧
      (rest ≠ tail → ∃ last, isSpace last = false ∧ last :: rest <:+ tail) := by
  obtain ⟨token, last, rfl, hlast, hlength, hplain⟩ := readLiteral_consumes hread
  have hle := hsuffix.length_le
  simp only [List.length_append, List.length_cons] at hle
  have hlastSuffix : last :: rest <:+ literal.written ++ tail :=
    (List.suffix_append token _).trans hsuffix
  have hrest : rest <:+ tail := by
    refine List.suffix_of_suffix_length_le ((List.suffix_cons last rest).trans hlastSuffix)
      (List.suffix_append _ _) ?_
    omega
  refine ⟨hrest, fun hwhole => ?_, fun hshort => ⟨last, hlast, ?_⟩⟩
  · subst hwhole
    refine ⟨hsuffix.eq_of_length ?_, hplain (by omega)⟩
    simp only [List.length_append, List.length_cons]
    omega
  · have hlt : rest.length < tail.length :=
      lt_of_le_of_ne hrest.length_le fun hsame => hshort (hrest.eq_of_length hsame)
    exact List.suffix_of_suffix_length_le hlastSuffix (List.suffix_append _ _) hlt

/-- Literals that are read as they were written are all plain.  The induction is over the
literals: a reader that is not behind the writer stays so, and one that is ahead never
gets back. -/
theorem plain_of_readLiterals (hgap : ∀ c ∈ gap, isSpace c = true)
    (hclose : ∀ c ∈ close, isSpace c = true) (hsuffix : text <:+ listed gap close literals)
    (hread : readLiterals fuel text = some (literals, after)) :
    text = listed gap close literals ∧ ∀ literal ∈ literals, literal.isPlain = true := by
  induction literals generalizing text fuel with
  | nil => exact absurd rfl (readLiterals_ne_nil hread)
  | cons literal others ih =>
      cases fuel with
      | zero => cases hread
      | succ fuel =>
          obtain ⟨read, rest, hliteral, hrest⟩ := readLiterals_cases hread
          cases others with
          | nil =>
              obtain ⟨hclosed, hsame⟩ : skipSpace rest = ')' :: after ∧ [literal] = [read] := by
                rcases hrest with hend | ⟨next, others, -, hothers, hsame⟩
                · exact hend
                · exact absurd (List.cons.inj hsame).2.symm (readLiterals_ne_nil hothers)
              cases hsame
              rw [listed_singleton] at hsuffix ⊢
              obtain ⟨-, hwhole, hshort⟩ := suffix_of_readLiteral hsuffix hliteral
              have htail : rest = close ++ [')'] := by
                by_contra hne
                obtain ⟨last, hlast, hsuffix⟩ := hshort hne
                have hle := (suffix_of_spaces hclose hlast hsuffix).length_le
                cases rest with
                | nil => cases hclosed
                | cons c rest => simp at hle
              obtain ⟨htext, hplain⟩ := hwhole htail
              exact ⟨htext, List.forall_mem_singleton.mpr hplain⟩
          | cons other others =>
              obtain ⟨next, hcomma, hothers, hsame⟩ : ∃ next, skipSpace rest = ',' :: next ∧
                  readLiterals fuel (skipSpace next) = some (other :: others, after) ∧
                  literal = read := by
                rcases hrest with ⟨-, hsame⟩ | ⟨next, others, hcomma, hothers, hsame⟩
                · cases hsame
                · cases hsame
                  exact ⟨next, hcomma, hothers, rfl⟩
              subst hsame
              have hne := List.cons_ne_nil other others
              rw [listed_cons gap close literal hne] at hsuffix ⊢
              obtain ⟨hrest, hwhole, -⟩ := suffix_of_readLiteral hsuffix hliteral
              have hskip : ∀ text, skipSpace text <:+ text := fun text => List.dropWhile_suffix _
              rcases List.suffix_cons_iff.mp hrest with htail | hahead
              · obtain ⟨htext, hplain⟩ := hwhole htail
                obtain ⟨c, cs, hlisted, hc, -⟩ := exists_listed gap close hne
                have hnext : skipSpace next = listed gap close (other :: others) := by
                  rw [htail, skipSpace_cons rfl] at hcomma
                  rw [← (List.cons.inj hcomma).2, skipSpace_append hgap, hlisted,
                    skipSpace_cons hc]
                exact ⟨htext, List.forall_mem_cons.mpr
                  ⟨hplain, (ih (hnext ▸ List.suffix_rfl) hothers).2⟩⟩
              · -- the comma has been read inside of the rest, which is too short then
                have hcommaSuffix : ',' :: next <:+ listed gap close (other :: others) :=
                  suffix_of_spaces hgap rfl (hcomma ▸ (hskip rest).trans hahead)
                have hnext := (hskip next).trans
                  ((List.suffix_cons ',' next).trans hcommaSuffix)
                have hlength := congrArg List.length (ih hnext hothers).1
                have hle := hcommaSuffix.length_le
                have hskipped := (hskip next).length_le
                rw [List.length_cons] at hle
                omega

theorem ends_comma (rest : List Char) : Ends (',' :: rest) := by
  intro c hc
  cases hc
  exact ⟨by decide, rfl⟩

theorem ends_close (hclose : ∀ c ∈ close, isSpace c = true) : Ends (close ++ [')']) := by
  intro c hc
  cases close with
  | nil =>
      cases hc
      exact ⟨by decide, rfl⟩
  | cons space spaces =>
      cases hc
      have hspace := hclose c List.mem_cons_self
      refine ⟨?_, ?_⟩
      · rintro rfl
        cases hspace
      · by_contra hdigit
        rw [isSpace_of_isDigit (Bool.not_eq_false _ ▸ hdigit)] at hspace
        cases hspace

/-- Plain literals are read as they were written. -/
theorem readLiterals_listed (hgap : ∀ c ∈ gap, isSpace c = true)
    (hclose : ∀ c ∈ close, isSpace c = true)
    (hplain : ∀ literal ∈ literals, literal.isPlain = true) (hne : literals ≠ [])
    (hfuel : literals.length ≤ fuel) :
    readLiterals fuel (listed gap close literals) = some (literals, []) := by
  induction literals generalizing fuel with
  | nil => exact absurd rfl hne
  | cons literal others ih =>
      obtain ⟨hliteral, hothers⟩ := List.forall_mem_cons.mp hplain
      cases fuel with
      | zero => cases hfuel
      | succ fuel =>
          by_cases hnil : others = []
          · have hskip : skipSpace (close ++ [')']) = [')'] := by
              rw [skipSpace_append hclose, skipSpace_cons rfl]
            rw [hnil, listed_singleton, readLiterals,
              readLiteral_written hliteral (ends_close hclose)]
            simp only [hskip]
          · obtain ⟨c, rest, hlisted, hc, -⟩ := exists_listed gap close hnil
            have hskip : skipSpace (',' :: (gap ++ listed gap close others)) =
                ',' :: (gap ++ listed gap close others) := skipSpace_cons rfl _
            have hnext : skipSpace (gap ++ listed gap close others) =
                listed gap close others := by
              rw [skipSpace_append hgap, hlisted, skipSpace_cons hc]
            rw [listed_cons gap close literal hnil, readLiterals,
              readLiteral_written hliteral (ends_comma _)]
            simp only [hskip, hnext, ih hothers hnil (Nat.le_of_succ_le_succ hfuel)]
            rfl

theorem length_le_listed (gap close : List Char) (literals : List Literal) :
    literals.length ≤ (listed gap close literals).length := by
  induction literals with
  | nil => exact Nat.zero_le _
  | cons literal others ih =>
      by_cases hnil : others = []
      · rw [hnil, listed_singleton]
        simp only [List.length_append, List.length_cons]
        omega
      · rw [listed_cons gap close literal hnil]
        simp only [List.length_append, List.length_cons]
        omega

/-- Round trip.  A tuple that is written without escapes is read as it was written exactly
when none of its texts needs one. -/
theorem readTuple_listed_iff (hgap : ∀ c ∈ gap, isSpace c = true)
    (hclose : ∀ c ∈ close, isSpace c = true) :
    readTuple ('(' :: gap ++ listed gap close literals) = some literals ↔
      ∀ literal ∈ literals, literal.isPlain = true := by
  by_cases hnil : literals = []
  · subst hnil
    have hskip : skipSpace (gap ++ listed gap close []) = [')'] := by
      rw [skipSpace_append hgap, listed, skipSpace_append hclose, skipSpace_cons rfl]
    refine iff_of_true ?_ fun _ hmem => absurd hmem List.not_mem_nil
    rw [readTuple, List.cons_append, skipSpace_cons rfl]
    simp only [hskip]
    rfl
  · obtain ⟨c, rest, hlisted, hc, hparen⟩ := exists_listed gap close hnil
    have hskip : skipSpace (gap ++ listed gap close literals) = c :: rest := by
      rw [skipSpace_append hgap, hlisted, skipSpace_cons hc]
    have htuple : readTuple ('(' :: gap ++ listed gap close literals) =
        match readLiterals (c :: rest).length (c :: rest) with
        | some (literals, after) => if skipSpace after = [] then some literals else none
        | none => none := by
      rw [readTuple, List.cons_append, skipSpace_cons rfl]
      simp only [hskip]
      split
      · rename_i heq
        exact absurd (List.cons.inj heq).1 hparen
      · rfl
    rw [htuple, ← hlisted]
    constructor
    · intro hread
      split at hread
      · rename_i read after hliterals
        split_ifs at hread
        cases hread
        exact (plain_of_readLiterals hgap hclose List.suffix_rfl hliterals).2
      · cases hread
    · intro hplain
      rw [readLiterals_listed hgap hclose hplain hnil (length_le_listed gap close literals)]
      rfl

end Tuples

end EasyTrade.SqlTuple
