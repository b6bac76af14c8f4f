import Lexline.Token.Kind

/-!
# The lexicon

The words of the language: blanks between lexemes, keywords, operators and delimiters, and the
classes of letters and digits.

* `isSpace`, `isLetter`, `isDigit` — the character classes of the scanner.
* `keywords`, `pairedOperators`, `soloTokens` — the fixed words, as tables.
* `wordKind` — the kind of a run of letters.
* `startsLexeme` — the characters that can start a lexeme; every other one is illegal.
* `InLexicon` — which texts are a lexeme of which kind.
* `firstLexeme` — the lexeme at the start of a text that starts with no blank: an operator with
  the equals sign after it, if there is one, a delimiter, the whole run of letters or digits, or
  one illegal character.
-/

namespace Lexline

/-- The characters between lexemes. -/
def spaces : List Char := ['\t', '\n', '\r', ' ']

/-- Whether a character only separates lexemes. -/
def isSpace (c : Char) : Bool := spaces.contains c

/-- An ASCII letter or an underscore. -/
def isLetter (c : Char) : Bool :=
  ('a' ≤ c && c ≤ 'z') || ('A' ≤ c && c ≤ 'Z') || c == '_'

/-- An ASCII decimal digit. -/
def isDigit (c : Char) : Bool := '0' ≤ c && c ≤ '9'

/-- The reserved words. -/
def keywords : List (String × Kind) :=
  [("let", .letWord), ("fn", .functionWord), ("if", .ifWord), ("else", .elseWord),
   ("return", .returnWord), ("true", .trueWord), ("false", .falseWord)]

/-- The characters that form one operator alone and another one together with an equals sign
after them. -/
def pairedOperators : List (Char × Kind × Kind) :=
  [('=', .assign, .eq), ('!', .bang, .notEq), ('<', .lt, .lte), ('>', .gt, .gte)]

/-- The characters that are a lexeme by themselves. -/
def soloTokens : List (Char × Kind) :=
  [('+', .plus), ('-', .minus), ('/', .slash), ('*', .asterisk), (';', .semicolon),
   ('(', .lparen), (')', .rparen), (',', .comma), ('{', .lbrace), ('}', .rbrace)]

/-- The kind of a word: its keyword, or an identifier. -/
def wordKind (word : String) : Kind := (keywords.lookup word).getD .ident

/-- The two kinds of a paired operator: alone, and before an equals sign. -/
def pairedKinds? (c : Char) : Option (Kind × Kind) := pairedOperators.lookup c

/-- The kind of a character that is a lexeme by itself. -/
def soloKind? (c : Char) : Option Kind := soloTokens.lookup c

/-- Whether some lexeme other than an illegal character starts with `c`. -/
def startsLexeme (c : Char) : Bool :=
  (pairedKinds? c).isSome || (soloKind? c).isSome || isLetter c || isDigit c

/-- The text that stands for the end of the source. -/
def endLiteral : String := "\x00"

/-- `InLexicon k w`: the text `w` is a lexeme of kind `k`. -/
inductive InLexicon : Kind → List Char → Prop
  | keyword {word : String} {k : Kind} (h : (word, k) ∈ keywords) : InLexicon k word.toList
  | ident {w : List Char} (nonempty : w ≠ []) (letters : ∀ c ∈ w, isLetter c = true)
      (free : ∀ p ∈ keywords, p.1.toList ≠ w) : InLexicon .ident w
  | int {w : List Char} (nonempty : w ≠ []) (digits : ∀ c ∈ w, isDigit c = true) :
      InLexicon .int w
  | alone {c : Char} {k k' : Kind} (h : (c, k, k') ∈ pairedOperators) : InLexicon k [c]
  | paired {c : Char} {k k' : Kind} (h : (c, k, k') ∈ pairedOperators) : InLexicon k' [c, '=']
  | solo {c : Char} {k : Kind} (h : (c, k) ∈ soloTokens) : InLexicon k [c]
  | illegal {c : Char} (apart : isSpace c = false) (foreign : startsLexeme c = false) :
      InLexicon .illegal [c]

/-! ## The lexeme at the start of a text -/

/-- The kind and the text of the lexeme at the start of a text. -/
def firstLexeme : List Char → Option (Kind × List Char)
  | [] => none
  | c :: rest =>
    match pairedKinds? c with
    | some (alone, paired) =>
      if rest.head? = some '=' then some (paired, [c, '=']) else some (alone, [c])
    | none =>
      match soloKind? c with
      | some kind => some (kind, [c])
      | none =>
        if isLetter c then
          let word := c :: rest.takeWhile isLetter
          some (wordKind (String.ofList word), word)
        else if isDigit c then some (.int, c :: rest.takeWhile isDigit)
        else some (.illegal, [c])

/-- A lexeme has at least one character. -/
theorem firstLexeme_ne_nil {text w : List Char} {k : Kind} (h : firstLexeme text = some (k, w)) :
    w ≠ [] := by
  unfold firstLexeme at h
  split at h
  · simp at h
  · split at h
    · split at h <;> (cases h; simp)
    · split at h
      · cases h; simp
      · split at h
        · cases h; simp
        · split at h <;> (cases h; simp)

/-! ## Whole-text comparison

The letter and digit tests also answer for a text that is not a single character: a text lies
between two letters in the order that compares character by character. -/

/-- Whether a text stands at or before another one, character by character. -/
def textLe : List Char → List Char → Bool
  | [], _ => true
  | _ :: _, [] => false
  | a :: as, b :: bs => if a = b then textLe as bs else a < b

/-- Whether a text lies between two characters. -/
def between (low high : Char) (text : List Char) : Bool :=
  textLe [low] text && textLe text [high]

/-- The letter test on a whole text. -/
def isLetterText (text : List Char) : Bool :=
  between 'a' 'z' text || between 'A' 'Z' text || text == ['_']

/-- The digit test on a whole text. -/
def isDigitText (text : List Char) : Bool := between '0' '9' text

end Lexline
