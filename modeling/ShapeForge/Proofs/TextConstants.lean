import Mathlib
import ShapeForge.Text.Quoted

/-!
# Text constants in a line of source

A line of source is read from left to right, one character at a time. Outside of text constants
every character is a piece of the line, up to a comment; a text constant is one piece, and its
value is read with all escapes that the language has (`Reader.step`).

A quoted text is read as one constant with this text as its value (`reads_quoted`), whatever the
text. Line breaks are refused everywhere (`Reader.step_lineBreak`), so it never breaks a line. Lines
are put together from quoted texts and from plain parts, and the pieces of a line are those of its
parts (`Reads.append`).
-/

namespace ShapeForge.Text

/-- What a line of source is made of. A template is a text constant in which names are filled in
later. -/
inductive Piece where
  | char (c : Char)
  | text (value : String)
  | template (value : String)
deriving DecidableEq

/-- The characters that end a line somewhere. -/
def lineBreaks : List Char :=
  ['\n', '\r', '\x0b', '\x0c', '\x1c', '\x1d', '\x1e', '\u0085', '\u2028', '\u2029']

/-- The quotes around text constants. -/
def quotes : List Char := ['\'', '"']

/-- Characters that can be a part of a name. -/
def isWord (c : Char) : Bool := c.isAlphanum || c == '_' || 128 ≤ c.toNat

/-- The value of a digit. -/
def digitValue? (base : Nat) (c : Char) : Option Nat :=
  let value :=
    if c.isDigit then c.toNat - 48
    else if 'a' ≤ c ∧ c ≤ 'f' then c.toNat - 87
    else if 'A' ≤ c ∧ c ≤ 'F' then c.toNat - 55
    else base
  if value < base then some value else none

/-- The escapes of single characters. -/
def shortEscapes : List (Char × Char) :=
  [('\\', '\\'), ('\'', '\''), ('"', '"'), ('a', '\x07'), ('b', '\x08'), ('f', '\x0c'),
    ('n', '\n'), ('r', '\r'), ('t', '\t'), ('v', '\x0b')]

/-- The escapes by code point, with their numbers of hexadecimal digits. -/
def codeEscapes : List (Char × Nat) := [('x', 2), ('u', 4), ('U', 8)]

/-- A text constant that is being read. -/
structure Opened where
  quote : Char
  isTemplate : Bool := false
  read : List Char := []

/-- Where a reader stands. -/
inductive Place where
  | code
  | comment
  | inside (o : Opened)
  /-- Behind a backslash. -/
  | escape (o : Opened)
  /-- In an escape by code point, with the number of missing digits. -/
  | codePoint (o : Opened) (missing value : Nat)
  /-- In an escape by octal digits, with the number of those that may follow. -/
  | octal (o : Opened) (missing value : Nat)

/-- What was read of a line, the last piece first, and where the reader stands. -/
structure Reader where
  pieces : List Piece := []
  place : Place := .code

namespace Opened

/-- The constant with one more character. -/
def add (o : Opened) (c : Char) : Opened := { o with read := o.read ++ [c] }

/-- The constant that ends here. -/
def piece (o : Opened) : Piece :=
  if o.isTemplate then .template (String.ofList o.read) else .text (String.ofList o.read)

/-- Reads a character that is in no escape. -/
def next (o : Opened) (pieces : List Piece) (c : Char) : Option Reader :=
  if lineBreaks.contains c then none
  else if c = o.quote then some ⟨o.piece :: pieces, .code⟩
  else if c = '\\' then some ⟨pieces, .escape o⟩
  else some ⟨pieces, .inside (o.add c)⟩

/-- Reads the character behind a backslash. A backslash before a character without a meaning there
stands for itself; names of characters and lines that go on are not read. -/
def escaped (o : Opened) (c : Char) : Option Place :=
  match shortEscapes.lookup c, codeEscapes.lookup c, digitValue? 8 c with
  | some d, _, _ => some (.inside (o.add d))
  | none, some width, _ => some (.codePoint o width 0)
  | none, none, some n => some (.octal o 2 n)
  | none, none, none =>
    if c = 'N' || lineBreaks.contains c then none else some (.inside ((o.add '\\').add c))

/-- Takes one more digit of a code point into account. -/
def codeDigit (o : Opened) (missing value : Nat) : Option Place :=
  if 1 < missing then some (.codePoint o (missing - 1) value)
  else if value.isValidChar then some (.inside (o.add (Char.ofNat value)))
  else none

end Opened

/-- Whether a text constant can start here: not directly behind a name or another constant. -/
def isFree : List Piece → Bool
  | [] => true
  | .char c :: _ => !isWord c
  | _ => false

/-- Whether a quote starts a template here, if it can start a constant at all. -/
def startsTemplate? (pieces : List Piece) : Option Bool :=
  if isFree pieces then some false
  else if pieces.head? = some (.char 'f') && isFree pieces.tail then some true
  else none

namespace Reader

/-- Reads one character. -/
def step (r : Reader) (c : Char) : Option Reader :=
  match r.place with
  | .code =>
    if quotes.contains c then
      (startsTemplate? r.pieces).map fun isTemplate =>
        ⟨r.pieces, .inside { quote := c, isTemplate }⟩
    else if lineBreaks.contains c then none
    else if c = '#' then some ⟨r.pieces, .comment⟩
    else some ⟨.char c :: r.pieces, .code⟩
  | .comment => if lineBreaks.contains c then none else some r
  | .inside o => o.next r.pieces c
  | .escape o => (o.escaped c).map fun place => ⟨r.pieces, place⟩
  | .codePoint o missing value =>
    (digitValue? 16 c).bind fun digit =>
      (o.codeDigit missing (16 * value + digit)).map fun place => ⟨r.pieces, place⟩
  | .octal o missing value =>
    match missing, digitValue? 8 c with
    | more + 1, some digit => some ⟨r.pieces, .octal o more (8 * value + digit)⟩
    | _, _ => (o.add (Char.ofNat value)).next r.pieces c

/-- Reads characters. -/
def run (r : Reader) (cs : List Char) : Option Reader := cs.foldlM step r

/-- The pieces of a line that ends here. -/
def finish (r : Reader) : Option (List Piece) :=
  match r.place with
  | .code => some r.pieces.reverse
  | .comment => some r.pieces.reverse
  | _ => none

end Reader

/-- The pieces of a line of source. -/
def pieces? (line : String) : Option (List Piece) :=
  (Reader.run {} line.toList).bind Reader.finish

/-! ## Quoted texts -/

namespace Reader

variable {r s : Reader} {cs ds : List Char}

theorem run_cons (c : Char) : r.run (c :: cs) = (r.step c).bind fun s => s.run cs :=
  List.foldlM_cons

theorem run_append : r.run (cs ++ ds) = (r.run cs).bind fun s => s.run ds := List.foldlM_append

theorem run_singleton (c : Char) : r.run [c] = r.step c := by
  rw [run_cons]
  exact Option.bind_fun_some _

theorem step_inside (o : Opened) (pieces : List Piece) (c : Char) :
    step ⟨pieces, .inside o⟩ c = o.next pieces c := rfl

theorem step_escape (o : Opened) (pieces : List Piece) (c : Char) :
    step ⟨pieces, .escape o⟩ c = (o.escaped c).map fun place => ⟨pieces, place⟩ := rfl

theorem run_of_run (h : r.run cs = some s) : r.run (cs ++ ds) = s.run ds := by
  rw [run_append, h, Option.bind_some]

/-- A line break is nowhere accepted. -/
theorem step_lineBreak {c : Char} (hc : c ∈ lineBreaks) : r.step c = none := by
  have hquote : c ∉ quotes := by
    simp only [lineBreaks, List.mem_cons, List.not_mem_nil, or_false] at hc
    rcases hc with rfl | rfl | rfl | rfl | rfl | rfl | rfl | rfl | rfl | rfl <;> decide
  have hdigit : digitValue? 16 c = none ∧ digitValue? 8 c = none := by
    simp only [lineBreaks, List.mem_cons, List.not_mem_nil, or_false] at hc
    rcases hc with rfl | rfl | rfl | rfl | rfl | rfl | rfl | rfl | rfl | rfl <;> decide
  have hescape : shortEscapes.lookup c = none ∧ codeEscapes.lookup c = none := by
    simp only [lineBreaks, List.mem_cons, List.not_mem_nil, or_false] at hc
    rcases hc with rfl | rfl | rfl | rfl | rfl | rfl | rfl | rfl | rfl | rfl <;> decide
  have hnext (o : Opened) (pieces : List Piece) : o.next pieces c = none :=
    if_pos (List.contains_iff_mem.2 hc)
  rcases r with ⟨pieces, _ | _ | o | o | ⟨o, missing, value⟩ | ⟨o, missing, value⟩⟩
  · simp [step, hquote, hc]
  · simp [step, hc]
  · exact hnext o pieces
  · simp [step, Opened.escaped, hescape, hdigit, hc]
  · simp [step, hdigit]
  · simp [step, hdigit, hnext]

theorem not_mem_lineBreaks_of_run : ∀ {cs : List Char} {r s : Reader}, r.run cs = some s →
    ∀ c ∈ cs, c ∉ lineBreaks
  | [], _, _, _ => List.forall_mem_nil _
  | c :: cs, r, s, h => by
    rw [run_cons] at h
    obtain ⟨t, hstep, hrun⟩ := Option.bind_eq_some_iff.1 h
    refine List.forall_mem_cons.2 ⟨fun hc => ?_, not_mem_lineBreaks_of_run hrun⟩
    rw [step_lineBreak hc] at hstep
    cases hstep

end Reader

/-- What is read as a line is on one line. -/
theorem not_mem_lineBreaks_of_pieces? {line : String} {pieces : List Piece}
    (h : pieces? line = some pieces) : ∀ c ∈ line.toList, c ∉ lineBreaks := by
  obtain ⟨r, hrun, -⟩ := Option.bind_eq_some_iff.1 h
  exact Reader.not_mem_lineBreaks_of_run hrun

theorem digitValue?_hexDigit (n : ℕ) : digitValue? 16 (hexDigit n) = some (n % 16) := by
  have hdigits : ∀ d < 16, digitValue? 16 (Nat.digitChar d) = some d := by decide
  exact hdigits (n % 16) (Nat.mod_lt n (by decide))

variable {o : Opened} {pieces : List Piece}

/-- Some of the digits of a code point, while others are still missing. -/
theorem run_hexDigits {missing : ℕ} (hmissing : 0 < missing) : ∀ (width n value : ℕ),
    Reader.run ⟨pieces, .codePoint o (width + missing) value⟩ (hexDigits width n)
      = some ⟨pieces, .codePoint o missing (value * 16 ^ width + n % 16 ^ width)⟩
  | 0, n, value => by simp [hexDigits, Reader.run, Nat.mod_one]
  | width + 1, n, value => by
    have hvalue : 16 * (value * 16 ^ width + n / 16 % 16 ^ width) + n % 16
        = value * 16 ^ (width + 1) + n % 16 ^ (width + 1) := by
      rw [pow_succ', Nat.mod_mul]
      ring
    rw [hexDigits, Nat.add_right_comm, add_assoc,
      Reader.run_of_run (run_hexDigits (Nat.succ_pos missing) width (n / 16) value),
      Reader.run_singleton]
    simp [Reader.step, digitValue?_hexDigit, Opened.codeDigit, hmissing, hvalue]

/-- All digits of a code point. -/
theorem run_codePoint {width : ℕ} {c : Char} (h : c.toNat < 16 ^ (width + 1)) :
    Reader.run ⟨pieces, .codePoint o (width + 1) 0⟩ (hexDigits (width + 1) c.toNat)
      = some ⟨pieces, .inside (o.add c)⟩ := by
  have hvalue : 16 * (c.toNat / 16 % 16 ^ width) + c.toNat % 16 = c.toNat := by
    rw [Nat.mod_eq_of_lt (Nat.div_lt_of_lt_mul (by rwa [← pow_succ'])), Nat.div_add_mod]
  have hvalid : c.toNat.isValidChar := c.valid
  rw [hexDigits, Reader.run_of_run (run_hexDigits Nat.one_pos width (c.toNat / 16) 0),
    Reader.run_singleton]
  simp [Reader.step, digitValue?_hexDigit, Opened.codeDigit, hvalue, hvalid]

theorem run_escape (hquote : o.quote ∈ quotes) (c : Char) (cs : List Char) :
    Reader.run ⟨pieces, .inside o⟩ ('\\' :: c :: cs)
      = (o.escaped c).bind fun place => Reader.run ⟨pieces, place⟩ cs := by
  have hne : '\\' ≠ o.quote := by
    rintro heq
    simp [← heq, quotes] at hquote
  have hnext : o.next pieces '\\' = some ⟨pieces, .escape o⟩ := by
    rw [Opened.next, if_neg (by decide), if_neg hne, if_pos rfl]
  rw [Reader.run_cons, Reader.step_inside, hnext, Option.bind_some, Reader.run_cons,
    Reader.step_escape, Option.bind_map]
  rfl

theorem run_escapeCode (hquote : o.quote ∈ quotes) (c : Char) :
    Reader.run ⟨pieces, .inside o⟩ (escapeCode c.toNat) = some ⟨pieces, .inside (o.add c)⟩ := by
  have hescape (letter : Char) (width : ℕ)
      (hletter : o.escaped letter = some (.codePoint o (width + 1) 0))
      (hlt : c.toNat < 16 ^ (width + 1)) :
      Reader.run ⟨pieces, .inside o⟩ ('\\' :: letter :: hexDigits (width + 1) c.toNat)
        = some ⟨pieces, .inside (o.add c)⟩ := by
    rw [run_escape hquote, hletter]
    exact run_codePoint hlt
  have hlt : c.toNat < 16 ^ 8 := by
    rcases c.valid with h | ⟨-, h⟩
    · exact lt_trans h (by norm_num)
    · exact lt_trans h (by norm_num)
  unfold escapeCode
  split_ifs with h₁ h₂
  · exact hescape 'x' 1 rfl h₁
  · exact hescape 'u' 3 rfl h₂
  · exact hescape 'U' 7 rfl hlt

theorem isPrintable_of_mem_lineBreaks {c : Char} (h : c ∈ lineBreaks) : isPrintable c = false := by
  simp only [lineBreaks, List.mem_cons, List.not_mem_nil, or_false] at h
  rcases h with rfl | rfl | rfl | rfl | rfl | rfl | rfl | rfl | rfl | rfl <;> decide +kernel

theorem lookup_shortEscapes {q : Char} (h : q ∈ quotes) : shortEscapes.lookup q = some q := by
  simp only [quotes, List.mem_cons, List.not_mem_nil, or_false] at h
  rcases h with rfl | rfl <;> rfl

theorem Opened.next_quote {quote : Char} (h : o.quote = quote) (hquote : quote ∈ quotes)
    (pieces : List Piece) : o.next pieces quote = some ⟨o.piece :: pieces, .code⟩ := by
  have hbreak : ¬ lineBreaks.contains quote = true := by
    simp only [quotes, List.mem_cons, List.not_mem_nil, or_false] at hquote
    rcases hquote with rfl | rfl <;> decide
  rw [next, if_neg hbreak, if_pos h.symm]

/-- A character is read back from what it is written as. -/
theorem run_quoteChar (pieces : List Piece) (hquote : o.quote ∈ quotes) (c : Char) :
    Reader.run ⟨pieces, .inside o⟩ (quoteChar o.quote c) = some ⟨pieces, .inside (o.add c)⟩ := by
  have hshort {letter : Char} (h : shortEscapes.lookup letter = some c) :
      Reader.run ⟨pieces, .inside o⟩ ['\\', letter] = some ⟨pieces, .inside (o.add c)⟩ := by
    rw [run_escape hquote, Opened.escaped, h]
    rfl
  unfold quoteChar
  simp only [beq_iff_eq, Bool.or_eq_true]
  split_ifs with hself hn hr ht hprint
  · refine hshort ?_
    rcases hself with rfl | rfl
    · exact lookup_shortEscapes hquote
    · rfl
  · exact hshort (by rw [hn]; rfl)
  · exact hshort (by rw [hr]; rfl)
  · exact hshort (by rw [ht]; rfl)
  · have hbreak : ¬ lineBreaks.contains c = true := by
      rw [List.contains_iff_mem]
      intro h
      rw [isPrintable_of_mem_lineBreaks h] at hprint
      contradiction
    rw [not_or] at hself
    rw [Reader.run_singleton, Reader.step_inside, Opened.next, if_neg hbreak, if_neg hself.1,
      if_neg hself.2]
  · exact run_escapeCode hquote c

theorem run_quoteChars (pieces : List Piece) (hquote : o.quote ∈ quotes) : ∀ cs read : List Char,
    Reader.run ⟨pieces, .inside { o with read }⟩ (cs.flatMap (quoteChar o.quote))
      = some ⟨pieces, .inside { o with read := read ++ cs }⟩
  | [], read => by
    rw [List.flatMap_nil, List.append_nil]
    rfl
  | c :: cs, read => by
    have hchar := run_quoteChar (o := { o with read }) pieces hquote c
    rw [List.flatMap_cons, Reader.run_of_run hchar, ← List.singleton_append, ← List.append_assoc]
    exact run_quoteChars pieces hquote cs _

theorem quoteFor_mem_quotes (cs : List Char) : quoteFor cs ∈ quotes := by
  unfold quoteFor
  split_ifs <;> decide

/-! ## Parts of lines -/

/-- Whether a text starts with a quote. -/
def startsQuoted (source : String) : Bool := source.toList.head?.any quotes.contains

/-- A part of a line has these pieces wherever it stands, if it may start there. -/
def Reads (source : String) (read : List Piece) : Prop :=
  ∀ before, (startsQuoted source = true → isFree before = true) →
    Reader.run ⟨before, .code⟩ source.toList = some ⟨read.reverse ++ before, .code⟩

theorem Reads.pieces? {source : String} {read : List Piece} (h : Reads source read) :
    pieces? source = some read := by
  rw [Text.pieces?, h [] fun _ => rfl, Option.bind_some]
  simp [Reader.finish]

theorem reads_quoted (text : String) : Reads (quoted text) [.text text] := by
  intro before hfree
  set cs := text.toList with hcs
  have hquote := quoteFor_mem_quotes cs
  have hsource : (quoted text).toList
      = quoteFor cs :: (cs.flatMap (quoteChar (quoteFor cs)) ++ [quoteFor cs]) := by
    rw [quoted, String.toList_ofList]
    rfl
  have hstart : startsTemplate? before = some false := by
    refine if_pos (hfree ?_)
    rw [startsQuoted, hsource]
    simpa using hquote
  have hbody := run_quoteChars (o := { quote := quoteFor cs }) before hquote cs []
  rw [hsource, Reader.run_cons, Reader.step, if_pos (List.contains_iff_mem.2 hquote), hstart]
  refine (Reader.run_of_run hbody).trans ?_
  rw [Reader.run_singleton, Reader.step_inside, Opened.next_quote rfl hquote, List.nil_append, hcs]
  simp [Opened.piece]

/-- Visible ASCII characters and the space, without quotes and the mark of comments. -/
def isPlainChar (c : Char) : Bool :=
  32 ≤ c.toNat && c.toNat ≤ 126 && c.toNat != 34 && c.toNat != 35 && c.toNat != 39

/-- Whether a text has neither constants nor a comment and is on one line. -/
def isPlain (source : String) : Bool := source.toList.all isPlainChar

theorem isPlain_append (a b : String) : isPlain (a ++ b) = (isPlain a && isPlain b) := by
  rw [isPlain, String.toList_append, List.all_append]
  rfl

theorem isPlain_intercalate : ∀ {parts : List String}, (∀ part ∈ parts, isPlain part = true) →
    isPlain (", ".intercalate parts) = true
  | [], _ => rfl
  | [part], h => by simpa using h
  | part :: next :: parts, h => by
    rw [List.forall_mem_cons] at h
    rw [String.intercalate_cons_cons, isPlain_append, isPlain_append, h.1,
      isPlain_intercalate h.2]
    decide

theorem not_mem_of_isPlainChar {c : Char} (h : isPlainChar c = true) :
    c ∉ quotes ∧ c ∉ lineBreaks ∧ c ≠ '#' := by
  have hmarks : (quotes ++ lineBreaks ++ ['#']).all (!isPlainChar ·) = true := by decide +kernel
  rw [List.all_eq_true] at hmarks
  refine ⟨fun hc => ?_, fun hc => ?_, fun hc => ?_⟩
  all_goals simpa [h] using hmarks c (by simp [hc])

theorem startsQuoted_of_isPlain {source : String} (h : isPlain source = true) :
    startsQuoted source = false := by
  rw [isPlain] at h
  rw [startsQuoted]
  rcases hcs : source.toList with _ | ⟨c, cs⟩
  · rfl
  · rw [hcs] at h
    rw [List.all_cons, Bool.and_eq_true] at h
    simpa using (not_mem_of_isPlainChar h.1).1

theorem step_code_of_plain {c : Char} (h : isPlainChar c = true) :
    Reader.step ⟨pieces, .code⟩ c = some ⟨.char c :: pieces, .code⟩ := by
  obtain ⟨hquote, hbreak, hcomment⟩ := not_mem_of_isPlainChar h
  simp [Reader.step, hquote, hbreak, hcomment]

theorem run_plain : ∀ (cs : List Char) (before : List Piece), cs.all isPlainChar = true →
    Reader.run ⟨before, .code⟩ cs = some ⟨(cs.map Piece.char).reverse ++ before, .code⟩
  | [], _, _ => rfl
  | c :: cs, before, h => by
    rw [List.all_cons, Bool.and_eq_true] at h
    rw [Reader.run_cons, step_code_of_plain h.1, Option.bind_some, run_plain cs _ h.2]
    simp

namespace Reads

variable {a b : String} {xs ys : List Piece}

theorem plain (h : isPlain a = true) : Reads a (a.toList.map .char) :=
  fun before _ => run_plain a.toList before h

theorem append (ha : Reads a xs) (hb : Reads b ys)
    (hfree : startsQuoted b = true → ∀ before, isFree (xs.reverse ++ before) = true) :
    Reads (a ++ b) (xs ++ ys) := by
  intro before hbefore
  have hstart : startsQuoted a = true → isFree before = true := by
    intro hquoted
    refine hbefore ?_
    rw [startsQuoted, String.toList_append]
    rw [startsQuoted] at hquoted
    rcases hcs : a.toList with _ | ⟨c, cs⟩ <;> simp_all
  rw [String.toList_append, Reader.run_of_run (ha before hstart), hb _ fun h => hfree h before,
    List.reverse_append, List.append_assoc]

theorem append_plain (ha : Reads a xs) (hb : isPlain b = true) :
    Reads (a ++ b) (xs ++ b.toList.map .char) :=
  ha.append (plain hb) fun h => by simp [startsQuoted_of_isPlain hb] at h

end Reads

/-- Whether a plain text ends where a constant can start. -/
def opensConstant (source : String) : Bool :=
  isPlain source && source.toList.getLast?.any (!isWord ·)

theorem opensConstant_append {a b : String} (ha : isPlain a = true) (hb : opensConstant b = true) :
    opensConstant (a ++ b) = true := by
  rw [opensConstant, Bool.and_eq_true] at hb ⊢
  refine ⟨by rw [isPlain_append, ha, hb.1]; rfl, ?_⟩
  rw [String.toList_append, List.getLast?_append]
  rcases hlast : b.toList.getLast? with _ | c
  · simp [hlast] at hb
  · simpa [hlast] using hb.2

theorem isFree_of_opensConstant {source : String} (h : opensConstant source = true)
    (before : List Piece) : isFree ((source.toList.map .char).reverse ++ before) = true := by
  rw [opensConstant, Bool.and_eq_true, ← List.head?_reverse] at h
  rw [← List.map_reverse]
  rcases hcs : source.toList.reverse with _ | ⟨c, cs⟩
  · simp [hcs] at h
  · rw [hcs] at h
    exact h.2

theorem Reads.append_after {a between b : String} {xs ys : List Piece} (ha : Reads a xs)
    (h : opensConstant between = true) (hb : Reads b ys) :
    Reads (a ++ between ++ b) (xs ++ between.toList.map .char ++ ys) := by
  refine (ha.append_plain (Bool.and_eq_true_iff.1 h).1).append hb fun _ before => ?_
  rw [List.reverse_append, List.append_assoc]
  exact isFree_of_opensConstant h _

theorem run_template (pieces : List Piece) (hquote : o.quote = '"') : ∀ cs read : List Char,
    (∀ c ∈ cs, c ≠ '"' ∧ c ≠ '\\' ∧ c ∉ lineBreaks) →
      Reader.run ⟨pieces, .inside { o with read }⟩ cs
        = some ⟨pieces, .inside { o with read := read ++ cs }⟩
  | [], read, _ => by
    rw [List.append_nil]
    rfl
  | c :: cs, read, h => by
    obtain ⟨hend, hescape, hbreak⟩ := h c List.mem_cons_self
    have hnext : Opened.next { o with read } pieces c
        = some ⟨pieces, .inside { o with read := read ++ [c] }⟩ := by
      simp [Opened.next, Opened.add, hquote, hend, hescape, hbreak]
    rw [Reader.run_cons, Reader.step_inside, hnext, Option.bind_some,
      run_template pieces hquote cs _ fun d hd => h d (List.mem_cons_of_mem c hd),
      List.append_assoc]
    rfl

theorem reads_template {start body : String} (hstart : opensConstant start = true)
    (hbody : ∀ c ∈ body.toList, c ≠ '"' ∧ c ≠ '\\' ∧ c ∉ lineBreaks) :
    Reads (start ++ "f\"" ++ body ++ "\"")
      (start.toList.map .char ++ [.char 'f', .template body]) := by
  intro before _
  have hplain := run_plain start.toList before (Bool.and_eq_true_iff.1 hstart).1
  have hfree := isFree_of_opensConstant hstart before
  set pieces := (start.toList.map Piece.char).reverse ++ before
  -- The letter makes the quote behind it open a template.
  have hopen : Reader.run ⟨pieces, .code⟩ ['f', '"']
      = some ⟨.char 'f' :: pieces, .inside { quote := '"', isTemplate := true }⟩ := by
    have htemplate : startsTemplate? (.char 'f' :: pieces) = some true := by
      rw [startsTemplate?, if_neg (by simp [isFree, isWord]), if_pos (by simpa using hfree)]
    rw [Reader.run_cons, step_code_of_plain (by decide), Option.bind_some, Reader.run_singleton]
    simp [Reader.step, quotes, htemplate]
  have hinside := run_template (o := { quote := '"', isTemplate := true })
    (.char 'f' :: pieces) rfl body.toList [] hbody
  have hend : '"' ∈ quotes := by decide
  have hsource : (start ++ "f\"" ++ body ++ "\"").toList
      = start.toList ++ (['f', '"'] ++ (body.toList ++ ['"'])) := by
    simp [String.toList_append]
  rw [hsource, Reader.run_of_run hplain, Reader.run_of_run hopen, Reader.run_of_run hinside,
    Reader.run_singleton, Reader.step_inside, Opened.next_quote rfl hend]
  simp [Opened.piece, pieces]

/-! ## The texts of lines -/

/-- The value of a text constant. -/
def Piece.text? : Piece → Option String
  | .text value => some value
  | _ => none

/-- The values of the text constants of a line. -/
def texts? (line : String) : Option (List String) :=
  (pieces? line).map fun pieces => pieces.filterMap Piece.text?

/-- The values of the text constants of lines. -/
def textsOf? : List String → Option (List String)
  | [] => some []
  | line :: lines => (texts? line).bind fun texts => (textsOf? lines).map (texts ++ ·)

/-- A part of a line has these text constants wherever it stands. -/
def Shows (source : String) (texts : List String) : Prop :=
  ∃ read, Reads source read ∧ read.filterMap Piece.text? = texts

theorem filterMap_text?_map_char (cs : List Char) :
    (cs.map Piece.char).filterMap Piece.text? = [] := by
  rw [List.filterMap_map, List.filterMap_eq_nil_iff]
  exact fun _ _ => rfl

namespace Shows

variable {a b : String} {ts us : List String}

theorem texts? (h : Shows a ts) : texts? a = some ts := by
  obtain ⟨read, hread, rfl⟩ := h
  rw [Text.texts?, hread.pieces?]
  rfl

theorem plain (h : isPlain a = true) : Shows a [] :=
  ⟨_, .plain h, filterMap_text?_map_char a.toList⟩

theorem constant (text : String) : Shows (quoted text) [text] := ⟨_, reads_quoted text, rfl⟩

theorem append_plain (ha : Shows a ts) (hb : isPlain b = true) : Shows (a ++ b) ts := by
  obtain ⟨xs, hxs, rfl⟩ := ha
  refine ⟨_, hxs.append_plain hb, ?_⟩
  rw [List.filterMap_append, filterMap_text?_map_char, List.append_nil]

theorem after (ha : opensConstant a = true) (hb : Shows b us) : Shows (a ++ b) us := by
  obtain ⟨ys, hys, rfl⟩ := hb
  refine ⟨_, (Reads.plain (Bool.and_eq_true_iff.1 ha).1).append hys fun _ =>
    isFree_of_opensConstant ha, ?_⟩
  rw [List.filterMap_append, filterMap_text?_map_char, List.nil_append]

theorem append_after {between : String} (ha : Shows a ts) (h : opensConstant between = true)
    (hb : Shows b us) : Shows (a ++ between ++ b) (ts ++ us) := by
  obtain ⟨xs, hxs, rfl⟩ := ha
  obtain ⟨ys, hys, rfl⟩ := hb
  refine ⟨_, hxs.append_after h hys, ?_⟩
  rw [List.filterMap_append, List.filterMap_append, filterMap_text?_map_char, List.append_nil]

end Shows

section Lines

variable {α : Type} {xs : List α} {lines more : List String} {ts us : List String}

theorem textsOf?_nil : textsOf? [] = some [] := rfl

theorem textsOf?_append (h : textsOf? lines = some ts) (hmore : textsOf? more = some us) :
    textsOf? (lines ++ more) = some (ts ++ us) := by
  induction lines generalizing ts with
  | nil =>
    obtain rfl := Option.some.inj h
    exact hmore
  | cons line lines ih =>
    obtain ⟨first, hfirst, h⟩ := Option.bind_eq_some_iff.1 h
    obtain ⟨rest, hrest, rfl⟩ := Option.map_eq_some_iff.1 h
    rw [List.cons_append, textsOf?, hfirst, Option.bind_some, ih hrest, List.append_assoc]
    rfl

theorem textsOf?_singleton {line : String} (h : texts? line = some ts) :
    textsOf? [line] = some ts := by
  simp [textsOf?, h]

theorem textsOf?_flatMap {f : α → List String} {g : α → List String}
    (h : ∀ x ∈ xs, textsOf? (f x) = some (g x)) :
    textsOf? (xs.flatMap f) = some (xs.flatMap g) := by
  induction xs with
  | nil => rfl
  | cons x xs ih =>
    rw [List.flatMap_cons, List.flatMap_cons]
    exact textsOf?_append (h x List.mem_cons_self) (ih fun y hy => h y (List.mem_cons_of_mem x hy))

theorem textsOf?_flatMap_nil {f : α → List String} (h : ∀ x ∈ xs, textsOf? (f x) = some []) :
    textsOf? (xs.flatMap f) = some [] := by
  have hnone := textsOf?_flatMap (g := fun _ => []) h
  rwa [List.flatMap_eq_nil_iff.2 fun _ _ => rfl] at hnone

theorem textsOf?_map {f : α → String} {g : α → List String}
    (h : ∀ x ∈ xs, texts? (f x) = some (g x)) :
    textsOf? (xs.map f) = some (xs.flatMap g) := by
  rw [List.map_eq_flatMap]
  exact textsOf?_flatMap fun x hx => textsOf?_singleton (h x hx)

theorem textsOf?_plain (h : ∀ line ∈ lines, isPlain line = true) : textsOf? lines = some [] := by
  rw [← List.flatMap_singleton' lines]
  exact textsOf?_flatMap_nil fun line hline =>
    textsOf?_singleton (Shows.plain (h line hline)).texts?

theorem not_mem_lineBreaks_of_textsOf? (h : textsOf? lines = some ts) :
    ∀ line ∈ lines, ∀ c ∈ line.toList, c ∉ lineBreaks := by
  induction lines generalizing ts with
  | nil => exact List.forall_mem_nil _
  | cons line lines ih =>
    obtain ⟨first, hfirst, hrest⟩ := Option.bind_eq_some_iff.1 h
    obtain ⟨pieces, hpieces, -⟩ := Option.map_eq_some_iff.1 hfirst
    obtain ⟨rest, hrest, -⟩ := Option.map_eq_some_iff.1 hrest
    exact List.forall_mem_cons.2 ⟨not_mem_lineBreaks_of_pieces? hpieces, ih hrest⟩

end Lines

end ShapeForge.Text
