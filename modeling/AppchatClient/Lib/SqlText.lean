import Mathlib.Data.List.Basic

/-!
# SQL statement text

The lexical rules by which SQLite splits a text into statements: single-quoted
literals in which a doubled quote stands for one, blobs, quoted identifiers,
variables, comments, space, and the characters that begin no token. Numbers,
keywords and names are all words, and an operator is read symbol by symbol.
The lexer is a transducer over code units, so a text is read piece by piece.
-/

namespace AppchatClient.Lib.SqlText

set_option autoImplicit false

inductive Token where
  | literal (text : List Char)
  | blob (digits : List Char)
  | word (text : List Char)
  | quoted (text : List Char)
  | variable (name : List Char)
  | symbol (char : Char)
  | space
  | semicolon
  | illegal
deriving DecidableEq, Repr

/-- What the lexer is inside of, with the characters read so far. -/
inductive Mode where
  | start
  | blank
  | word (read : List Char)
  | mark (read : List Char)
  | literal (read : List Char)
  | literalQuote (read : List Char)
  | blob (read : List Char)
  | quoted (closer : Char) (read : List Char)
  | quotedQuote (closer : Char) (read : List Char)
  | bracketed (read : List Char)
  | variable (read : List Char) (named : Bool)
  | variableColon (read : List Char) (named : Bool)
  | variableArgs (read : List Char)
  | bang
  | dash
  | lineComment
  | slash
  | slashStar
  | blockComment
  | blockStar
deriving DecidableEq, Repr

def quote : Char := Char.ofNat 39

def backtick : Char := Char.ofNat 96

def verticalTab : Char := Char.ofNat 11

def byteOrderMark : List Char := [Char.ofNat 239, Char.ofNat 187, Char.ofNat 191]

def isSpace (c : Char) : Bool := c == ' ' || c == '\t' || c == '\n' || c == '\x0c' || c == '\r'

def isWordChar (c : Char) : Bool := c.isAlphanum || c == '_' || c == '$' || 128 ≤ c.toNat

def isHexDigit (c : Char) : Bool :=
  c.isDigit || 'a' ≤ c && c ≤ 'f' || 'A' ≤ c && c ≤ 'F'

/-- The characters that no token of SQL begins with. -/
def isIllegal (c : Char) : Bool :=
  c.toNat < 32 || c == Char.ofNat 127 || c ∈ ['\\', ']', '^', '\x7b', '\x7d']

/-- A character outside everything: the tokens it completes and the mode it opens. -/
def opening (c : Char) : List Token × Mode :=
  if c = quote then ([], .literal [])
  else if c = '"' ∨ c = backtick then ([], .quoted c [])
  else if c = '[' then ([], .bracketed [])
  else if c = ';' then ([.semicolon], .start)
  else if isSpace c then ([.space], .blank)
  else if c = '$' ∨ c = '@' ∨ c = '#' ∨ c = ':' then ([], .variable [c] false)
  else if [c] <+: byteOrderMark then ([], .mark [c])
  else if isWordChar c then ([], .word [c])
  else if c = '-' then ([], .dash)
  else if c = '/' then ([], .slash)
  else if c = '!' then ([], .bang)
  else if isIllegal c then ([.illegal], .start)
  else ([.symbol c], .start)

def closeBefore (token : Token) (c : Char) : List Token × Mode :=
  (token :: (opening c).1, (opening c).2)

def inWord (read : List Char) (c : Char) : List Token × Mode :=
  if isWordChar c then ([], .word (read ++ [c]))
  else if c = quote ∧ (read = ['x'] ∨ read = ['X']) then ([], .blob [])
  else closeBefore (.word read) c

def blobToken (read : List Char) : Token :=
  if read.all isHexDigit ∧ read.length % 2 = 0 then .blob read else .illegal

/-- A variable needs a character of a name. -/
def variableToken (read : List Char) (named : Bool) : Token :=
  if named then .variable read else .illegal

def inVariable (read : List Char) (named : Bool) (c : Char) : List Token × Mode :=
  if isWordChar c then ([], .variable (read ++ [c]) true)
  else if c = '(' ∧ named then ([], .variableArgs (read ++ [c]))
  else if c = ':' then ([], .variableColon read named)
  else closeBefore (variableToken read named) c

def advance : Mode → Char → List Token × Mode
  | .start, c => opening c
  -- A vertical tab goes on a space but does not begin one.
  | .blank, c => if c = verticalTab then ([.space], .blank) else opening c
  | .word read, c => inWord read c
  | .mark read, c =>
      if read ++ [c] = byteOrderMark then ([.space], .start)
      else if read ++ [c] <+: byteOrderMark then ([], .mark (read ++ [c]))
      else inWord read c
  | .literal read, c =>
      if c = quote then ([], .literalQuote read) else ([], .literal (read ++ [c]))
  | .literalQuote read, c =>
      if c = quote then ([], .literal (read ++ [c])) else closeBefore (.literal read) c
  | .blob read, c => if c = quote then ([blobToken read], .start) else ([], .blob (read ++ [c]))
  | .quoted closer read, c =>
      if c = closer then ([], .quotedQuote closer read) else ([], .quoted closer (read ++ [c]))
  | .quotedQuote closer read, c =>
      if c = closer then ([], .quoted closer (read ++ [c])) else closeBefore (.quoted read) c
  | .bracketed read, c =>
      if c = ']' then ([.quoted read], .start) else ([], .bracketed (read ++ [c]))
  | .variable read named, c => inVariable read named c
  | .variableColon read named, c =>
      if c = ':' then ([], .variable (read ++ [':', c]) named)
      else (variableToken read named :: (inVariable [':'] false c).1, (inVariable [':'] false c).2)
  -- In the brackets everything but a space belongs to the name, also an apostrophe.
  | .variableArgs read, c =>
      if c = ')' then ([.variable (read ++ [c])], .start)
      else if isSpace c ∨ c = verticalTab then closeBefore .illegal c
      else ([], .variableArgs (read ++ [c]))
  | .bang, c => if c = '=' then ([.symbol '!', .symbol c], .start) else closeBefore .illegal c
  | .dash, c => if c = '-' then ([], .lineComment) else closeBefore (.symbol '-') c
  | .lineComment, c => if c = '\n' then ([.space], .blank) else ([], .lineComment)
  | .slash, c => if c = '*' then ([], .slashStar) else closeBefore (.symbol '/') c
  | .slashStar, c => if c = '*' then ([], .blockStar) else ([], .blockComment)
  | .blockComment, c => if c = '*' then ([], .blockStar) else ([], .blockComment)
  | .blockStar, c =>
      if c = '/' then ([.space], .start)
      else if c = '*' then ([], .blockStar) else ([], .blockComment)

/-- What is left at the end of the text: an open literal or identifier is illegal. -/
def finish : Mode → List Token
  | .start => []
  | .blank => []
  | .word read => [.word read]
  | .mark read => [.word read]
  | .literal _ => [.illegal]
  | .literalQuote read => [.literal read]
  | .blob _ => [.illegal]
  | .quoted _ _ => [.illegal]
  | .quotedQuote _ read => [.quoted read]
  | .bracketed _ => [.illegal]
  | .variable read named => [variableToken read named]
  | .variableColon read named => [variableToken read named, .illegal]
  | .variableArgs _ => [.illegal]
  | .bang => [.illegal]
  | .dash => [.symbol '-']
  | .lineComment => [.space]
  | .slash => [.symbol '/']
  | .slashStar => [.symbol '/', .symbol '*']
  | .blockComment => [.space]
  | .blockStar => [.space]

def scan : Mode → List Char → List Token × Mode
  | mode, [] => ([], mode)
  | mode, c :: rest =>
      let here := advance mode c
      let later := scan here.2 rest
      (here.1 ++ later.1, later.2)

def lex (text : List Char) : List Token :=
  (scan .start text).1 ++ finish (scan .start text).2

def pieces : List Token → List (List Token)
  | [] => [[]]
  | .semicolon :: rest => [] :: pieces rest
  | token :: rest =>
      match pieces rest with
      | piece :: others => (token :: piece) :: others
      | [] => [[token]]

def isBlank (piece : List Token) : Bool := piece.all (· == .space)

/-- The statements of a text: the pieces that are not only space and comments. -/
def statements (text : List Char) : List (List Token) :=
  (pieces (lex text)).filter fun piece => !isBlank piece

/-- The tokens that a parser sees. -/
def strip (statement : List Token) : List Token := statement.filter (· != .space)

theorem scan_append (mode : Mode) (first second : List Char) :
    scan mode (first ++ second) =
      ((scan mode first).1 ++ (scan (scan mode first).2 second).1,
        (scan (scan mode first).2 second).2) := by
  induction first generalizing mode with
  | nil => rfl
  | cons c rest ih => simp [scan, ih, List.append_assoc]

theorem scan_after {mode middle last : Mode} {first second : List Char}
    {tokens more : List Token} (before : scan mode first = (tokens, middle))
    (behind : scan middle second = (more, last)) :
    scan mode (first ++ second) = (tokens ++ more, last) := by
  rw [scan_append, before, behind]

theorem lex_of_scan {text : List Char} {tokens : List Token}
    (read : scan .start text = (tokens, .start)) : lex text = tokens := by
  rw [lex, read]
  exact List.append_nil tokens

theorem scan_literal (read text : List Char) (plain : quote ∉ text) :
    scan (.literal read) text = ([], .literal (read ++ text)) := by
  induction text generalizing read with
  | nil => simp [scan]
  | cons c rest ih =>
      simp only [List.mem_cons, not_or] at plain
      have other : c ≠ quote := fun same => plain.1 same.symm
      simp [scan, advance, other, ih (read ++ [c]) plain.2]

theorem pieces_cons {token : Token} (inside : token ≠ .semicolon) (rest : List Token) :
    ∃ piece others, pieces rest = piece :: others ∧
      pieces (token :: rest) = (token :: piece) :: others := by
  have nonempty : pieces rest ≠ [] := by
    cases rest with
    | nil => simp [pieces]
    | cons first rest =>
        cases first <;> simp only [pieces] <;> try exact List.cons_ne_nil _ _
        all_goals split <;> exact List.cons_ne_nil _ _
  obtain ⟨piece, others, split⟩ := List.exists_cons_of_ne_nil nonempty
  refine ⟨piece, others, split, ?_⟩
  cases token <;> first | exact absurd rfl inside | simp [pieces, split]

theorem pieces_front (front rest : List Token) (whole : .semicolon ∉ front) :
    ∃ piece others, pieces rest = piece :: others ∧
      pieces (front ++ rest) = (front ++ piece) :: others := by
  induction front with
  | nil =>
      have nonempty : pieces rest ≠ [] := by
        intro none
        rcases pieces_cons (by decide : Token.space ≠ .semicolon) rest with ⟨_, _, some, -⟩
        exact absurd (none.symm.trans some) (by simp)
      obtain ⟨piece, others, split⟩ := List.exists_cons_of_ne_nil nonempty
      exact ⟨piece, others, split, split⟩
  | cons token front ih =>
      simp only [List.mem_cons, not_or] at whole
      obtain ⟨piece, others, split, joined⟩ := ih whole.2
      obtain ⟨next, more, frontSplit, frontJoined⟩ :=
        pieces_cons (fun same => whole.1 same.symm) (front ++ rest)
      rw [joined] at frontSplit
      obtain ⟨rfl, rfl⟩ := List.cons.inj frontSplit
      exact ⟨piece, others, split, frontJoined⟩

theorem pieces_append (piece rest : List Token) (whole : .semicolon ∉ piece) :
    pieces (piece ++ .semicolon :: rest) = piece :: pieces rest := by
  obtain ⟨last, others, split, joined⟩ := pieces_front piece (.semicolon :: rest) whole
  obtain ⟨rfl, rfl⟩ := List.cons.inj split
  rw [joined, List.append_nil]

/-- A text as it stands inside a literal: every apostrophe twice. -/
def escape : List Char → List Char
  | [] => []
  | c :: rest => if c = quote then quote :: quote :: escape rest else c :: escape rest

theorem escape_of_plain {text : List Char} (plain : quote ∉ text) : escape text = text := by
  induction text with
  | nil => rfl
  | cons c rest ih =>
      simp only [List.mem_cons, not_or] at plain
      rw [escape, if_neg (Ne.symm plain.1), ih plain.2]

def lexFrom (mode : Mode) (text : List Char) : List Token :=
  (scan mode text).1 ++ finish (scan mode text).2

theorem lex_from_cons (mode : Mode) (c : Char) (rest : List Char) :
    lexFrom mode (c :: rest) = (advance mode c).1 ++ lexFrom (advance mode c).2 rest := by
  simp [lexFrom, scan]

theorem lex_append {first rest : List Char} {tokens : List Token} {mode : Mode}
    (read : scan .start first = (tokens, mode)) :
    lex (first ++ rest) = tokens ++ lexFrom mode rest := by
  rw [lex, scan_append, read, lexFrom, List.append_assoc]

theorem statements_append {first rest : List Char} {statement : List Token}
    (read : scan .start first = (statement ++ [.semicolon], .start))
    (whole : .semicolon ∉ statement) (filled : isBlank statement = false) :
    statements (first ++ rest) = statement :: statements rest := by
  have lexed : lex (first ++ rest) = statement ++ .semicolon :: lex rest := by
    rw [lex_append read, List.append_assoc]
    rfl
  rw [statements, lexed, pieces_append statement _ whole, List.filter_cons, filled]
  rfl

theorem lex_from_close (token : Token) (c : Char) (rest : List Char) :
    (closeBefore token c).1 ++ lexFrom (closeBefore token c).2 rest =
      token :: lexFrom .start (c :: rest) := by
  rw [lex_from_cons]
  rfl

/-- A literal is open at the end of the text, or it was read from its escaped
content. The second part is for the place right behind an apostrophe. -/
theorem literal_source (text read : List Char) :
    (lexFrom (.literal read) text = [.illegal] ∨
      ∃ body rest, text = escape body ++ quote :: rest ∧
        lexFrom (.literal read) text = .literal (read ++ body) :: lexFrom .start rest) ∧
    (lexFrom (.literalQuote read) text = [.illegal] ∨
      ∃ body rest, quote :: text = escape body ++ quote :: rest ∧
        lexFrom (.literalQuote read) text = .literal (read ++ body) :: lexFrom .start rest) := by
  induction text generalizing read with
  | nil =>
      constructor
      · exact Or.inl rfl
      · refine Or.inr ⟨[], [], rfl, ?_⟩
        rw [List.append_nil]
        rfl
  | cons c text ih =>
      constructor
      · rw [lex_from_cons]
        by_cases ends : c = quote
        · subst ends
          rw [advance, if_pos rfl, List.nil_append]
          exact (ih read).2
        · rw [advance, if_neg ends, List.nil_append]
          rcases (ih (read ++ [c])).1 with opened | ⟨body, rest, split, lexed⟩
          · exact Or.inl opened
          · refine Or.inr ⟨c :: body, rest, ?_, ?_⟩
            · rw [split, escape, if_neg ends]
              rfl
            · rw [lexed, List.append_assoc]
              rfl
      · rw [lex_from_cons]
        by_cases doubled : c = quote
        · subst doubled
          rw [advance, if_pos rfl, List.nil_append]
          rcases (ih (read ++ [quote])).1 with opened | ⟨body, rest, split, lexed⟩
          · exact Or.inl opened
          · refine Or.inr ⟨quote :: body, rest, ?_, ?_⟩
            · rw [split, escape, if_pos rfl]
              rfl
            · rw [lexed, List.append_assoc]
              rfl
        · rw [advance, if_neg doubled, lex_from_close]
          refine Or.inr ⟨[], c :: text, rfl, ?_⟩
          rw [List.append_nil]

theorem no_escaped_start {d : Char} (other : d ≠ quote) (text rest : List Char) (more : Nat) :
    ¬ List.replicate (more + 1) quote ++ (escape text ++ [quote]) <+:
      text ++ quote :: d :: rest := by
  induction text generalizing more with
  | nil =>
      intro part
      rw [List.replicate_succ, List.cons_append, List.nil_append, List.cons_prefix_cons] at part
      cases more with
      | zero => exact other (List.cons_prefix_cons.mp part.2).1.symm
      | succ fewer =>
          rw [List.replicate_succ, List.cons_append, List.cons_prefix_cons] at part
          exact other part.2.1.symm
  | cons c text ih =>
      intro part
      rw [List.replicate_succ, List.cons_append, List.cons_append, List.cons_prefix_cons] at part
      rcases part with ⟨rfl, part⟩
      have oneMore : List.replicate more quote ++ (escape (quote :: text) ++ [quote]) =
          List.replicate (more + 1 + 1) quote ++ (escape text ++ [quote]) := by
        rw [escape, if_pos rfl, List.replicate_succ', List.replicate_succ', List.append_assoc,
          List.append_assoc]
        rfl
      rw [oneMore] at part
      exact ih (more + 1) part

theorem plain_of_escaped_start {d : Char} (other : d ≠ quote) {text rest : List Char}
    (part : escape text ++ [quote] <+: text ++ quote :: d :: rest) : quote ∉ text := by
  induction text with
  | nil => exact List.not_mem_nil
  | cons c text ih =>
      by_cases ends : c = quote
      · subst ends
        rw [escape, if_pos rfl, List.cons_append, List.cons_append, List.cons_append,
          List.cons_prefix_cons] at part
        exact absurd part.2 (no_escaped_start other text rest 0)
      · rw [escape, if_neg ends, List.cons_append, List.cons_append, List.cons_prefix_cons] at part
        rw [List.mem_cons, not_or]
        exact ⟨Ne.symm ends, ih part.2⟩

def significant (tokens : List Token) : List Token :=
  tokens.filter fun token => token != .space && token != .semicolon

theorem strip_pieces (tokens : List Token) :
    (pieces tokens).flatMap strip = significant tokens := by
  induction tokens with
  | nil => rfl
  | cons token rest ih =>
      by_cases ends : token = .semicolon
      · subst ends
        rw [pieces, List.flatMap_cons, ih]
        rfl
      · rcases pieces_cons ends rest with ⟨piece, others, split, joined⟩
        rw [split, List.flatMap_cons] at ih
        rw [joined, List.flatMap_cons]
        by_cases blank : token = .space
        · subst blank
          exact ih
        · have kept : significant (token :: rest) = token :: significant rest := by
            simp [significant, ends, blank]
          have first : strip (token :: piece) = token :: strip piece := by
            simp [strip, blank]
          rw [kept, ← ih, first]
          rfl

theorem strip_blank {piece : List Token} (blank : isBlank piece = true) : strip piece = [] := by
  rw [strip, List.filter_eq_nil_iff]
  intro token member
  have space := List.all_eq_true.mp blank token member
  simpa using space

theorem strip_statements (text : List Char) :
    (statements text).flatMap strip = significant (lex text) := by
  rw [← strip_pieces, statements]
  induction pieces (lex text) with
  | nil => rfl
  | cons piece rest ih =>
      cases blank : isBlank piece with
      | true => simpa [List.filter_cons, blank, strip_blank blank] using ih
      | false => simpa [List.filter_cons, blank] using ih

/-- Read as a literal with the content that was pasted in front of an apostrophe:
then the content has no apostrophe, and the rest is read from the start. -/
theorem pasted_literal {d : Char} (other : d ≠ quote) {text rest given : List Char}
    (part : given <+: text ++ quote :: d :: rest) {tokens : List Token}
    (read : significant (lexFrom (.literal []) given) = .literal text :: tokens) :
    quote ∉ text ∧ ∃ behind, given = text ++ quote :: behind ∧ behind <+: d :: rest ∧
      significant (lexFrom .start behind) = tokens := by
  rcases (literal_source given []).1 with opened | ⟨body, behind, split, lexed⟩
  · rw [opened] at read
    simp [significant] at read
  · rw [lexed] at read
    obtain ⟨same, tokensEq⟩ := List.cons.inj read
    obtain rfl : body = text := Token.literal.inj same
    have front : escape body ++ [quote] <+: given := by
      rw [split]
      exact ⟨behind, by simp⟩
    have plain := plain_of_escaped_start other (front.trans part)
    rw [escape_of_plain plain] at split
    rw [split, List.prefix_append_right_inj, List.cons_prefix_cons] at part
    exact ⟨plain, behind, split, part.2, tokensEq⟩

end AppchatClient.Lib.SqlText
