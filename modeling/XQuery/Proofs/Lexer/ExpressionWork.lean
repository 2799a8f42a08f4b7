import XQuery.Proofs.Lexer.Nesting
import XQuery.Proofs.Lexer.Sessions
import XQuery.Proofs.Lexer.Texts

/-!
# The expression lexer at work

How the expression lexer finds its tokens with a cursor, one code point at a
time. It sets a checkpoint before it looks at an exponent, at the brace behind
`Q`, or for the end tag of a comment or pragma, and goes back to it if it has
looked too far. Each function of the work has the outcome that the function of
the same name of the rule computes from the code points ahead
(`Expression.work_implements`).
-/

namespace XQuery.Expression

open Session (Advances Performs ahead_bumps_one ahead_of_peek_some bump_eat_cases charClass_nil
  charClass_cons peek_nil peek_cons)

/-- The word that stands for the mode in a state. -/
def Mode.word (mode : Mode) : UInt32 := mode.code.toUInt32

namespace Work

def isDigit (c : CodePoint) : Bool := CharClass.of c == .digit

def isBlank (c : CodePoint) : Bool := CharClass.of c == .whitespace

def isName (c : CodePoint) : Bool := (CharClass.of c).isName

/-! ## Tokens outside strings, comments and pragmas -/

/-- Eat the sign of an exponent. -/
def sign (s : Session) : Session :=
  let plus := s.eat '+'
  if plus.1 then plus.2 else (plus.2.eat '-').2

/-- What may follow a number of the given kind. -/
def exponent (kind : Kind) (s : Session) : Kind × Session :=
  if s.sees 'e' || s.sees 'E' then
    let t := sign s.save.bump
    if t.charClass = .digit then (.doubleLiteral, t.eatWhile isDigit)
    else if t.charClass = .nameStartChar then (kind, t.restore)
    else (.partialDoubleLiteralExponent, t)
  else (kind, s)

def number (s : Session) : Kind × Session :=
  let point := (s.eatWhile isDigit).eat '.'
  if point.1 then exponent .decimalLiteral (point.2.eatWhile isDigit)
  else exponent .integerLiteral point.2

/-- A token that starts with a dot. -/
def dot (s : Session) : Kind × Session :=
  let second := s.bump.eat '.'
  if second.1 then (.parentSelector, second.2)
  else if second.2.charClass = .digit then exponent .decimalLiteral (second.2.eatWhile isDigit)
  else (.contextItem, second.2)

/-- An operator of one character, or of two when one of the given characters follows it. -/
def operator (alone : Kind) (pairs : List (Char × Kind)) (s : Session) : Kind × Session :=
  match pairs.find? fun (ch, _) => s.bump.sees ch with
  | some (_, kind) => (kind, s.bump.bump)
  | none => (alone, s.bump)

/-- Pass over a name. -/
def ncName (s : Session) : Session := s.bump.eatWhile isName

/-- A name or a keyword, whichever the text of the token is. It fails if the token has none. -/
def word (s : Session) : Option (Option Kind × Session) :=
  (ncName s).cursor.text?.map fun text =>
    match Keyword.ofWord? text with
    | some k => (some (.keyword k), ncName s)
    | none => (some .ncName, ncName s)

def name (s : Session) : Option (Option Kind × Session) :=
  if s.sees 'Q' then
    let brace := s.save.bump.eat '\x7b'
    if brace.1 then some (some .bracedUriLiteralStart, brace.2.push Mode.bracedUri.word)
    else word brace.2.restore
  else word s

/-- A token that starts with a parenthesis. -/
def parenthesis (s : Session) : Kind × Session :=
  let colon := s.bump.eat ':'
  if colon.1 then
    (.commentStartTag,
      colon.2.push (if colon.2.sees '~' then Mode.docMarker.word else Mode.comment.word))
  else
    let hash := colon.2.eat '#'
    if hash.1 then (.pragmaBegin, hash.2.push Mode.pragmaStart.word)
    else (.parenthesisOpen, hash.2)

/-- The outcome of work that always finds a token. -/
def found (outcome : Kind × Session) : Option Kind × Session := (some outcome.1, outcome.2)

def plain (s : Session) : Option (Option Kind × Session) :=
  match s.charClass with
  | .endOfBuffer => some (none, s)
  | .whitespace => some (some .whiteSpace, s.eatWhile isBlank)
  | .dot => some (found (dot s))
  | .digit => some (found (number s))
  | .quote => some (some .stringLiteralStart, s.bump.push Mode.quoted.word)
  | .apostrophe => some (some .stringLiteralStart, s.bump.push Mode.apostrophed.word)
  | .nameStartChar => name s
  | .parenthesisOpen => some (found (parenthesis s))
  | .parenthesisClose => some (some .parenthesisClose, s.bump)
  | .colon =>
      some (found (operator .qnameSeparator
        [(':', .axisSeparator), ('=', .assign), (')', .commentEndTag)] s))
  | .hash => some (found (operator .functionRefOperator [(')', .pragmaEnd)] s))
  | .exclamationMark => some (found (operator .mapOperator [('=', .notEqual)] s))
  | .equal => some (found (operator .equal [('>', .arrowOperator)] s))
  | .lessThan =>
      some (found (operator .lessThan [('=', .lessThanOrEqual), ('<', .nodeBefore)] s))
  | .greaterThan =>
      some (found (operator .greaterThan [('=', .greaterThanOrEqual), ('>', .nodeAfter)] s))
  | .verticalBar => some (found (operator .union [('|', .concatenation)] s))
  | .forwardSlash => some (found (operator .directDescendants [('/', .allDescendants)] s))
  | .atSign => some (some .attributeSelector, s.bump)
  | .comma => some (some .comma, s.bump)
  | .squareBracketOpen => some (some .squareOpen, s.bump)
  | .squareBracketClose => some (some .squareClose, s.bump)
  | .curlyBraceOpen => some (some .blockOpen, s.bump)
  | .curlyBraceClose => some (some .blockClose, s.bump)
  | .plus => some (some .plus, s.bump)
  | .hyphenMinus => some (some .minus, s.bump)
  | .star => some (some .star, s.bump)
  | .questionMark => some (some .optional, s.bump)
  | .dollar => some (some .variableIndicator, s.bump)
  | .semicolon => some (some .separator, s.bump)
  | .invalid | .nameChar | .ampersand | .percent | .backSlash | .circumflexAccent | .tilde
  | .backTick => some (some .badCharacter, s.bump)

/-! ## Tokens inside strings, comments and pragmas -/

/-- The end of a reference; a semicolon closes it. -/
def closeReference (closed : Kind) (s : Session) : Kind × Session :=
  let semicolon := s.eat ';'
  (if semicolon.1 then closed else .partialEntityReference, semicolon.2)

/-- An entity or character reference. -/
def reference (s : Session) : Kind × Session :=
  match s.bump.charClass with
  | .nameStartChar => closeReference .predefinedEntityReference (ncName s.bump)
  | .hash =>
      let hex := s.bump.bump.eat 'x'
      closeReference .characterReference (hex.2.eatWhile (if hex.1 then isHexDigit else isDigit))
  | _ => (.emptyEntityReference, (s.bump.eat ';').2)

def string (quote : Char) (s : Session) : Option Kind × Session :=
  match s.peek with
  | none => (none, s)
  | some c =>
      if c == quote.toNat then
        let doubled := s.bump.eat quote
        if doubled.1 then (some .escapedCharacter, doubled.2)
        else (some .stringLiteralEnd, doubled.2.pop)
      else if c == '&'.toNat then found (reference s)
      else
        (some .stringLiteralContents, s.eatWhile fun c => c != quote.toNat && c != '&'.toNat)

def bracedUri (s : Session) : Option Kind × Session :=
  match s.peek with
  | none => (none, s)
  | some c =>
      if c == '\x7d'.toNat then (some .bracedUriLiteralEnd, s.bump.pop)
      else if c == '&'.toNat then found (reference s)
      else
        (some .stringLiteralContents, s.eatWhile fun c => c != '\x7d'.toNat && c != '&'.toNat)

/-- Pass over the text of a comment at a nesting depth. The end tag of the comment itself is left,
also if it has been looked at. -/
def commentText (depth : Nat) (s : Session) : Kind × Session :=
  match _h : s.peek with
  | none => (.partialComment, s)
  | some c =>
      if c == '('.toNat then
        let opened := s.bump.eat ':'
        commentText (if opened.1 then depth + 1 else depth) opened.2
      else if c == ':'.toNat then
        let closed := s.save.bump.eat ')'
        if closed.1 then
          match depth with
          | 0 => (.comment, closed.2.restore)
          | depth + 1 => commentText depth closed.2
        else commentText depth closed.2
      else commentText depth s.bump
termination_by s.cursor.ahead.length
decreasing_by
  · exact Session.length_ahead_bump_eat _h ':'
  · exact Session.length_ahead_save_eat _h ')'
  · exact Session.length_ahead_save_eat _h ')'
  · exact Session.length_ahead_bump _h

def comment (s : Session) : Option Kind × Session :=
  match s.peek with
  | none => (none, s)
  | some c =>
      if c == ':'.toNat then
        let closed := s.save.bump.eat ')'
        if closed.1 then (some .commentEndTag, closed.2.pop)
        else found (commentText 0 closed.2.restore)
      else found (commentText 0 s)

def docMarker (s : Session) : Option Kind × Session :=
  let marker := (s.set Mode.comment.word).eat '~'
  if marker.1 then (some .docCommentMarker, marker.2) else comment marker.2

/-- Eat the end tag of a pragma, and tell whether it was there. -/
def pragmaEnd (s : Session) : Bool × Session :=
  let hash := s.save.eat '#'
  if hash.1 then
    let close := hash.2.eat ')'
    if close.1 then (true, close.2.pop) else (false, close.2.restore)
  else (false, hash.2.restore)

/-- A part of a pragma's name. -/
def pragmaNamePart (s : Session) : Kind × Session :=
  match s.charClass with
  | .nameStartChar => (.ncName, ncName s)
  | .colon => (.qnameSeparator, s.bump)
  | _ => (.badCharacter, s.bump)

/-- A token in front of a pragma's name or of it. The first part of the name leads into the name,
and the white space behind it to the contents. -/
def pragmaName (first : Bool) (s : Session) : Option Kind × Session :=
  let ended := pragmaEnd s
  if ended.1 then (some .pragmaEnd, ended.2)
  else if ended.2.charClass = .endOfBuffer then (none, ended.2)
  else if ended.2.charClass = .whitespace then
    let blank := ended.2.eatWhile isBlank
    (some .whiteSpace, if first then blank else blank.set Mode.pragmaContents.word)
  else
    let part := pragmaNamePart ended.2
    (some part.1, if first then part.2.set Mode.pragmaName.word else part.2)

/-- Pass over the text of a pragma up to its end tag. -/
def pragmaText (s : Session) : Session :=
  match _h : s.peek with
  | none => s
  | some c =>
      if c == '#'.toNat then
        let closed := s.save.bump.eat ')'
        if closed.1 then closed.2.restore else pragmaText closed.2
      else pragmaText s.bump
termination_by s.cursor.ahead.length
decreasing_by
  · exact Session.length_ahead_save_eat _h ')'
  · exact Session.length_ahead_bump _h

def pragmaContents (s : Session) : Option Kind × Session :=
  let ended := pragmaEnd s
  if ended.1 then (some .pragmaEnd, ended.2)
  else
    match ended.2.peek with
    | none => (none, ended.2)
    | some _ => (some .pragmaContents, pragmaText ended.2)

def scan : Mode → Session → Option (Option Kind × Session)
  | .plain, s => plain s
  | .quoted, s => some (string '"' s)
  | .apostrophed, s => some (string '\'' s)
  | .comment, s => some (comment s)
  | .pragmaStart, s => some (pragmaName true s)
  | .pragmaName, s => some (pragmaName false s)
  | .pragmaContents, s => some (pragmaContents s)
  | .bracedUri, s => some (bracedUri s)
  | .docMarker, s => some (docMarker s)

end Work

/-- The expression lexer at work. -/
def work : Work := fun state s => Work.scan (Mode.ofCode state.toNat) s

/-! ## Agreement with the rule -/

namespace Work

variable {s t : Session} {n : Nat} {c : CodePoint} {cs : List CodePoint}

theorem next_cons (ch : Char) (c : CodePoint) (cs : List CodePoint) :
    next ch (c :: cs) = (c == ch.toNat) := rfl

theorem sign_eq (s : Session) : sign s = s.bumps (Expression.sign s.cursor.ahead) := by
  unfold sign Expression.sign
  by_cases hplus : next '+' s.cursor.ahead = true
  · simp [Session.eat_pos hplus, hplus]
  · by_cases hminus : next '-' s.cursor.ahead = true
    · simp [Session.eat_neg hplus, Session.eat_pos hminus, hminus]
    · simp [Session.eat_neg hplus, Session.eat_neg hminus, hplus, hminus, Session.bumps_zero]

theorem eatWhile_isDigit (hs : s.cursor.ahead = c :: cs) (hc : CharClass.of c = .digit) :
    s.eatWhile isDigit = s.bumps (1 + digits cs) :=
  Session.eatWhile_cons hs (by rw [isDigit, hc]; rfl)

theorem eatWhile_isBlank (hs : s.cursor.ahead = c :: cs) (hc : CharClass.of c = .whitespace) :
    s.eatWhile isBlank = s.bumps (1 + blanks cs) :=
  Session.eatWhile_cons hs (by rw [isBlank, hc]; rfl)

theorem ncName_eq (hs : s.cursor.ahead = c :: cs) : ncName s = s.bumps (1 + nameChars cs) := by
  rw [ncName, Session.eatWhile_eq, Session.ahead_bump, hs, List.tail_cons, Session.bump_bumps]
  rfl

theorem exponent_performs (h : s.Advances n t) (kind : Kind) :
    s.Performs (Expression.exponent kind n t.cursor.ahead) (found (exponent kind t)) := by
  unfold exponent
  rw [Session.sees_eq, Session.sees_eq]
  cases hahead : t.cursor.ahead with
  | nil => exact h.token kind
  | cons c cs =>
    rw [next_cons, next_cons]
    by_cases hletter : (c == 'e'.toNat || c == 'E'.toNat) = true
    · have hsign : sign t.save.bump = t.save.bumps (1 + Expression.sign cs) := by
        rw [sign_eq, Session.bump_bumps, Session.ahead_bump, Session.ahead_save, hahead,
          List.tail_cons]
      have hread := h.save_bumps (1 + Expression.sign cs)
      have hrest : (t.save.bumps (1 + Expression.sign cs)).cursor.ahead
          = cs.drop (Expression.sign cs) := by
        rw [Session.ahead_bumps, Session.ahead_save, hahead, Nat.add_comm, List.drop_succ_cons]
      rw [Expression.exponent, if_pos hletter, if_pos hletter, hsign]
      cases hcs : cs.drop (Expression.sign cs) with
      | nil =>
        rw [hcs] at hrest
        simp only [hcs, charClass_nil hrest]
        exact (hread.of_eq (by omega)).token _
      | cons d ds =>
        rw [hcs] at hrest
        simp only [hcs, charClass_cons hrest]
        split
        · next hdigit =>
          rw [if_pos hdigit, eatWhile_isDigit hrest hdigit]
          exact ((hread.bumps _).of_eq (by omega)).token _
        · next hstart =>
          -- the letter begins a name, and the cursor goes back in front of it
          rw [if_neg (by rw [hstart]; decide), if_pos hstart]
          exact (h.restore _).token _
        · next hdigit hstart =>
          rw [if_neg hdigit, if_neg hstart]
          exact (hread.of_eq (by omega)).token _
    · rw [Expression.exponent, if_neg hletter, if_neg hletter]
      exact h.token kind

theorem number_eq (cs : List CodePoint) :
    Expression.number cs =
      if next '.' (cs.drop (digits cs)) then
        let rest := (cs.drop (digits cs)).tail
        Expression.exponent .decimalLiteral (1 + digits cs + 1 + digits rest)
          (rest.drop (digits rest))
      else Expression.exponent .integerLiteral (1 + digits cs) (cs.drop (digits cs)) := by
  rw [Expression.number]
  cases cs.drop (digits cs) with
  | nil => rfl
  | cons c rest => rfl

theorem number_performs (hs : s.cursor.ahead = c :: cs) (hc : CharClass.of c = .digit) :
    s.Performs (Expression.number cs) (found (number s)) := by
  have hread := Session.advances_bumps (1 + digits cs) s
  have hrest := ahead_bumps_one hs (digits cs)
  rw [number_eq, ← hrest]
  unfold number
  rw [eatWhile_isDigit hs hc]
  generalize s.bumps (1 + digits cs) = t at *
  by_cases hpoint : next '.' t.cursor.ahead = true
  · have htail : (t.bumps 1).cursor.ahead = t.cursor.ahead.tail := by
      rw [Session.ahead_bumps, List.drop_one]
    have hfraction : (t.bumps 1).eatWhile isDigit
        = (t.bumps 1).bumps (digits t.cursor.ahead.tail) := by
      rw [Session.eatWhile_eq, htail]
      rfl
    have hdecimal :=
      exponent_performs ((hread.bumps 1).bumps (digits t.cursor.ahead.tail)) .decimalLiteral
    rw [Session.ahead_bumps, htail] at hdecimal
    rw [if_pos hpoint, Session.eat_pos hpoint]
    simp only [if_true, hfraction]
    exact hdecimal
  · rw [if_neg hpoint, Session.eat_neg hpoint]
    exact exponent_performs hread .integerLiteral

theorem dot_performs (hs : s.cursor.ahead = c :: cs) :
    s.Performs (Expression.dot cs) (found (dot s)) := by
  have hread := Session.advances_bumps 1 s
  have hrest : (s.bumps 1).cursor.ahead = cs := ahead_bumps_one hs 0
  unfold dot Expression.dot
  rw [← Session.bumps_one]
  generalize s.bumps 1 = t at *
  by_cases hdot : next '.' cs = true
  · rw [if_pos hdot, Session.eat_pos (by rw [hrest]; exact hdot)]
    exact (hread.bumps 1).token _
  · rw [if_neg hdot, Session.eat_neg (by rw [hrest]; exact hdot)]
    simp only [Bool.false_eq_true, if_false]
    cases cs with
    | nil =>
      rw [charClass_nil hrest]
      exact hread.token _
    | cons d ds =>
      rw [charClass_cons hrest]
      by_cases hd : CharClass.of d = .digit
      · have hdigits : digits (d :: ds) = 1 + digits ds := by
          simp [digits, count, hd, Nat.add_comm]
        have hdecimal := exponent_performs (hread.bumps (1 + digits ds)) .decimalLiteral
        rw [Session.ahead_bumps, hrest] at hdecimal
        rw [if_pos hd, eatWhile_isDigit hrest hd, hdigits, Nat.add_comm 1 (digits ds)]
        rw [Nat.add_comm 1 (digits ds)] at hdecimal
        exact hdecimal
      · have hdigits : digits (d :: ds) = 0 := by simp [digits, count, hd]
        rw [if_neg hd, hdigits]
        exact hread.token _

theorem operator_performs (hs : s.cursor.ahead = c :: cs) (alone : Kind)
    (pairs : List (Char × Kind)) :
    s.Performs (Expression.operator alone pairs cs) (found (operator alone pairs s)) := by
  have hsees : (fun pair : Char × Kind => s.bump.sees pair.1) = fun pair => next pair.1 cs := by
    funext pair
    rw [Session.sees_eq, Session.ahead_bump, hs, List.tail_cons]
  unfold operator Expression.operator
  rw [hsees]
  cases pairs.find? fun pair => next pair.1 cs with
  | some pair => exact ((Session.advances_bumps 1 s).bumps 1).token pair.2
  | none => exact (Session.advances_bumps 1 s).token alone

/-- The kind of a name depends on the text of the token, which is that of the code points read. -/
theorem word_performs (hpoised : s.cursor.start = s.cursor.stop) (hs : s.cursor.ahead = c :: cs)
    (hread : s.Advances 0 t) :
    ∃ outcome, word t = some outcome ∧
      s.Performs (.token (nameKind (c :: cs.take (nameChars cs))) (1 + nameChars cs)) outcome := by
  have ht : t.cursor.ahead = c :: cs := by rw [hread.ahead, hs, List.drop_zero]
  have hname := (hread.bumps (1 + nameChars cs)).of_eq (Nat.zero_add _)
  have htext := hname.text? hpoised
  rw [hs, Nat.add_comm, List.take_succ_cons, Nat.add_comm] at htext
  unfold word nameKind
  rw [ncName_eq ht, htext, List.map_cons]
  refine ⟨_, rfl, ?_⟩
  simp only
  cases Keyword.ofWord? _ with
  | some k => exact hname.token _
  | none => exact hname.token _

theorem name_performs (hpoised : s.cursor.start = s.cursor.stop) (hs : s.cursor.ahead = c :: cs) :
    ∃ outcome, name s = some outcome ∧ s.Performs (Expression.name c cs) outcome := by
  unfold name Expression.name
  rw [Session.sees_eq, hs, next_cons, ← Session.bumps_one]
  by_cases hletter : (c == 'Q'.toNat) = true
  · have hrest : (s.save.bumps 1).cursor.ahead = cs := by
      rw [Session.ahead_bumps, Session.ahead_save, hs, List.drop_one, List.tail_cons]
    rw [if_pos hletter, hletter, Bool.true_and]
    by_cases hbrace : next '\x7b' cs = true
    · rw [if_pos hbrace, Session.eat_pos (by rw [hrest]; exact hbrace), Session.bumps_bumps]
      exact ⟨_, rfl, ((Session.Advances.refl s).save_bumps 2).pushes _ Mode.bracedUri.word⟩
    · rw [if_neg hbrace, Session.eat_neg (by rw [hrest]; exact hbrace)]
      exact word_performs hpoised hs (Session.advances_restore 1 s)
  · rw [if_neg hletter, (Bool.not_eq_true _).mp hletter, Bool.false_and, if_neg Bool.false_ne_true]
    exact word_performs hpoised hs (.refl s)

theorem parenthesis_performs (hs : s.cursor.ahead = c :: cs) :
    s.Performs (Expression.parenthesis cs) (found (parenthesis s)) := by
  have hread := Session.advances_bumps 1 s
  have hrest : (s.bumps 1).cursor.ahead = cs := ahead_bumps_one hs 0
  unfold parenthesis Expression.parenthesis
  rw [← Session.bumps_one]
  generalize s.bumps 1 = t at *
  by_cases hcolon : next ':' cs = true
  · have htail : (t.bumps 1).cursor.ahead = cs.tail := by
      rw [Session.ahead_bumps, hrest, List.drop_one]
    rw [if_pos hcolon, Session.eat_pos (by rw [hrest]; exact hcolon)]
    simp only [if_true, Session.sees_eq, htail]
    by_cases htilde : next '~' cs.tail = true
    · simp only [htilde, if_true]
      exact (hread.bumps 1).pushes _ Mode.docMarker.word
    · simp only [htilde, Bool.false_eq_true, if_false]
      exact (hread.bumps 1).pushes _ Mode.comment.word
  · rw [if_neg hcolon, Session.eat_neg (by rw [hrest]; exact hcolon)]
    simp only [Bool.false_eq_true, if_false]
    by_cases hhash : next '#' cs = true
    · rw [if_pos hhash, Session.eat_pos (by rw [hrest]; exact hhash)]
      exact (hread.bumps 1).pushes _ Mode.pragmaStart.word
    · rw [if_neg hhash, Session.eat_neg (by rw [hrest]; exact hhash)]
      exact hread.token _

theorem plain_performs (hpoised : s.cursor.start = s.cursor.stop) :
    ∃ outcome, plain s = some outcome ∧
      s.Performs (Expression.plain s.cursor.ahead) outcome := by
  have hread := Session.advances_bumps 1 s
  cases hs : s.cursor.ahead with
  | nil =>
    unfold plain
    rw [charClass_nil hs]
    exact ⟨_, rfl, (Session.Advances.refl s).exhausted⟩
  | cons c cs =>
    have hclass := of_ne_endOfBuffer c
    unfold plain
    rw [charClass_cons hs]
    simp only [Expression.plain]
    cases hc : CharClass.of c with
    | endOfBuffer => exact absurd hc hclass
    | whitespace =>
      simp only
      rw [eatWhile_isBlank hs hc]
      exact ⟨_, rfl, (Session.advances_bumps _ s).token _⟩
    | dot => exact ⟨_, rfl, dot_performs hs⟩
    | digit => exact ⟨_, rfl, number_performs hs hc⟩
    | quote => exact ⟨_, rfl, hread.pushes _ Mode.quoted.word⟩
    | apostrophe => exact ⟨_, rfl, hread.pushes _ Mode.apostrophed.word⟩
    | nameStartChar => exact name_performs hpoised hs
    | parenthesisOpen => exact ⟨_, rfl, parenthesis_performs hs⟩
    | colon | hash | exclamationMark | equal | lessThan | greaterThan | verticalBar
    | forwardSlash => exact ⟨_, rfl, operator_performs hs _ _⟩
    | _ => exact ⟨_, rfl, hread.token _⟩

/-! ### References and strings -/

theorem closeReference_performs (h : s.Advances n t) (closed : Kind) :
    s.Performs (Expression.closeReference closed n t.cursor.ahead)
      (found (closeReference closed t)) := by
  unfold closeReference Expression.closeReference
  by_cases hsemicolon : next ';' t.cursor.ahead = true
  · rw [if_pos hsemicolon, Session.eat_pos hsemicolon]
    exact (h.bumps 1).token _
  · rw [if_neg hsemicolon, Session.eat_neg hsemicolon]
    exact h.token _

theorem next_semicolon (c : CodePoint) (cs : List CodePoint) :
    next ';' (c :: cs) = true ↔ CharClass.of c = .semicolon := by
  rw [next_cons, beq_iff_eq]
  constructor
  · rintro rfl
    decide
  · intro hc
    exact point_of_class ';'.toNat (hc.trans (by decide)) (by decide) (by decide)

theorem reference_performs (hs : s.cursor.ahead = c :: cs) :
    s.Performs (Expression.reference cs) (found (reference s)) := by
  have hread := Session.advances_bumps 1 s
  have hrest : (s.bumps 1).cursor.ahead = cs := ahead_bumps_one hs 0
  unfold reference
  rw [← Session.bumps_one]
  generalize s.bumps 1 = t at *
  cases cs with
  | nil =>
    have hsemicolon : ¬next ';' t.cursor.ahead = true := by rw [hrest]; exact Bool.false_ne_true
    simp only [charClass_nil hrest, Session.eat_neg hsemicolon]
    exact hread.token _
  | cons d ds =>
    have hsemicolon := next_semicolon d ds
    rw [← hrest] at hsemicolon
    simp only [charClass_cons hrest, Expression.reference]
    cases hd : CharClass.of d with
    | nameStartChar =>
      have hname := hread.bumps (1 + nameChars ds)
      have hperforms := closeReference_performs hname .predefinedEntityReference
      rw [ahead_bumps_one hrest] at hperforms
      simp only [ncName_eq hrest, ← Nat.add_assoc] at hperforms ⊢
      exact hperforms
    | hash =>
      have hrest' : (t.bumps 1).cursor.ahead = ds := ahead_bumps_one hrest 0
      simp only [← Session.bumps_one]
      by_cases hx : next 'x' ds = true
      · have htail : ((t.bumps 1).bumps 1).cursor.ahead = ds.tail := by
          rw [Session.ahead_bumps, hrest', List.drop_one]
        have hhex := ((hread.bumps 1).bumps 1).bumps (ds.tail.takeWhile isHexDigit).length
        have hperforms := closeReference_performs hhex .characterReference
        rw [Session.ahead_bumps, htail] at hperforms
        simp only [Session.eat_pos (hrest' ▸ hx), hx, if_true, Session.eatWhile_eq, htail]
        exact hperforms
      · have hdecimal := (hread.bumps 1).bumps (digits ds)
        have hperforms := closeReference_performs hdecimal .characterReference
        rw [Session.ahead_bumps, hrest'] at hperforms
        simp only [Session.eat_neg (hrest' ▸ hx), hx, Bool.false_eq_true, if_false,
          Session.eatWhile_eq, hrest']
        exact hperforms
    | semicolon =>
      simp only [Session.eat_pos (hsemicolon.mpr hd)]
      exact (hread.bumps 1).token _
    | _ =>
      have hnot : ¬next ';' t.cursor.ahead = true := by rw [hsemicolon, hd]; decide
      simp only [Session.eat_neg hnot]
      exact hread.token _

theorem eatWhile_contents {ch : Char} (hs : s.cursor.ahead = c :: cs)
    (hch : ¬(c == ch.toNat) = true) (hand : ¬(c == '&'.toNat) = true) :
    s.eatWhile (fun c => c != ch.toNat && c != '&'.toNat) = s.bumps (1 + contents ch cs) :=
  Session.eatWhile_cons hs (by simp only [bne, hch, hand]; rfl)

theorem string_performs (quote : Char) (s : Session) :
    s.Performs (Expression.string quote s.cursor.ahead) (string quote s) := by
  have hread := Session.advances_bumps 1 s
  unfold string
  rw [← Session.bumps_one]
  cases hs : s.cursor.ahead with
  | nil =>
    rw [peek_nil hs]
    exact (Session.Advances.refl s).exhausted
  | cons c cs =>
    have hrest : (s.bumps 1).cursor.ahead = cs := ahead_bumps_one hs 0
    simp only [peek_cons hs, Expression.string]
    by_cases hquote : (c == quote.toNat) = true
    · rw [if_pos hquote, if_pos hquote]
      by_cases hdoubled : next quote cs = true
      · rw [if_pos hdoubled, Session.eat_pos (hrest ▸ hdoubled)]
        exact (hread.bumps 1).token _
      · rw [if_neg hdoubled, Session.eat_neg (hrest ▸ hdoubled)]
        exact hread.pops _
    · rw [if_neg hquote, if_neg hquote]
      by_cases hand : (c == '&'.toNat) = true
      · rw [if_pos hand, if_pos hand]
        exact reference_performs hs
      · rw [if_neg hand, if_neg hand, eatWhile_contents hs hquote hand]
        exact (Session.advances_bumps _ s).token _

theorem bracedUri_performs (s : Session) :
    s.Performs (Expression.bracedUri s.cursor.ahead) (bracedUri s) := by
  unfold bracedUri
  cases hs : s.cursor.ahead with
  | nil =>
    rw [peek_nil hs]
    exact (Session.Advances.refl s).exhausted
  | cons c cs =>
    simp only [peek_cons hs, Expression.bracedUri]
    by_cases hbrace : (c == '\x7d'.toNat) = true
    · rw [if_pos hbrace, if_pos hbrace]
      exact (Session.advances_bumps 1 s).pops _
    · rw [if_neg hbrace, if_neg hbrace]
      by_cases hand : (c == '&'.toNat) = true
      · rw [if_pos hand, if_pos hand]
        exact reference_performs hs
      · rw [if_neg hand, if_neg hand, eatWhile_contents hs hbrace hand]
        exact (Session.advances_bumps _ s).token _

/-! ### Comments -/

/-- The outcome is the text of a comment at the depth, as far as the rule reads it. -/
def ReadsText (depth : Nat) (s : Session) (outcome : Kind × Session) : Prop :=
  s.Advances (Expression.commentText depth s.cursor.ahead).1 outcome.2 ∧
    outcome.1
      = if (Expression.commentText depth s.cursor.ahead).2 then .comment else .partialComment

theorem ReadsText.after {depth depth' : Nat} {outcome : Kind × Session} (hread : s.Advances n t)
    (hpasses : Documentation.Passes depth s.cursor.ahead n depth')
    (h : ReadsText depth' t outcome) : ReadsText depth s outcome := by
  rw [ReadsText, hread.ahead] at h
  rw [ReadsText, hpasses.length, hpasses.closed]
  exact ⟨hread.trans h.1, h.2⟩

theorem commentText_reads (depth : Nat) (s : Session) :
    ReadsText depth s (commentText depth s) := by
  fun_induction commentText depth s with
  | case1 depth s hnone =>
    rw [ReadsText, Session.ahead_of_peek_none hnone]
    exact ⟨.refl s, rfl⟩
  | case2 depth s c hsome hopen opened ih =>
    obtain ⟨cs, hcs⟩ := ahead_of_peek_some hsome
    rcases bump_eat_cases hcs ':' with ⟨ds, rfl, heat⟩ | ⟨hcolon, heat⟩
    · have hopened : opened = (true, s.bumps 2) := heat
      simp only [hopened, if_true, dite_true] at ih ⊢
      refine .after (Session.advances_bumps 2 s) ?_ ih
      rw [hcs]
      exact Documentation.passes_open (by rw [hopen]; rfl) depth ds
    · have hopened : opened = (false, s.bumps 1) := heat
      simp only [hopened, Bool.false_eq_true, if_false, dite_false] at ih ⊢
      refine .after (Session.advances_bumps 1 s) ?_ ih
      rw [hcs]
      refine Documentation.passes_one (by rw [hcolon, Bool.and_false]) ?_ depth
      rw [next_cons, beq_iff_eq.mp hopen]
      rfl
  | case3 s c hsome hopen hcolon closed hclosed =>
    obtain ⟨cs, hcs⟩ := ahead_of_peek_some hsome
    rcases bump_eat_cases (s.ahead_save.trans hcs) ')' with ⟨ds, rfl, heat⟩ | ⟨_, heat⟩
    · have hclose : (c == ':'.toNat && ')'.toNat == ')'.toNat) = true := by rw [hcolon]; rfl
      have htext := commentText_end (not_open_of_close hclose) hclose ds
      have hend : closed = (true, s.save.bumps 2) := heat
      -- the end tag is a token of its own, and the cursor goes back in front of it
      rw [ReadsText, hcs, htext, hend]
      exact ⟨Session.advances_restore 2 s, rfl⟩
    · rw [show closed = _ from heat] at hclosed
      cases hclosed
  | case4 s c hsome hopen hcolon closed hclosed depth ih =>
    obtain ⟨cs, hcs⟩ := ahead_of_peek_some hsome
    rcases bump_eat_cases (s.ahead_save.trans hcs) ')' with ⟨ds, rfl, heat⟩ | ⟨_, heat⟩
    · have hend : closed = (true, s.save.bumps 2) := heat
      rw [hend] at ih ⊢
      refine .after ((Session.Advances.refl s).save_bumps 2) ?_ ih
      rw [hcs]
      exact Documentation.passes_close (by rw [hcolon]; rfl) depth ds
    · rw [show closed = _ from heat] at hclosed
      cases hclosed
  | case5 depth s c hsome hopen hcolon closed hclosed ih =>
    obtain ⟨cs, hcs⟩ := ahead_of_peek_some hsome
    rcases bump_eat_cases (s.ahead_save.trans hcs) ')' with ⟨_, _, heat⟩ | ⟨hnext, heat⟩
    · exact absurd (by rw [show closed = _ from heat]) hclosed
    · have hnot : closed = (false, s.save.bumps 1) := heat
      rw [hnot] at ih ⊢
      refine .after ((Session.Advances.refl s).save_bumps 1) ?_ ih
      rw [hcs]
      refine Documentation.passes_one ?_ (by rw [hnext, Bool.and_false]) depth
      rw [next_cons, beq_iff_eq.mp hcolon]
      rfl
  | case6 depth s c hsome hopen hcolon ih =>
    obtain ⟨cs, hcs⟩ := ahead_of_peek_some hsome
    refine .after (Session.advances_bumps 1 s) ?_ ih
    rw [hcs]
    exact Documentation.passes_plain (by simpa using hopen) (by simpa using hcolon) depth cs

theorem commentText_performs (hread : s.Advances 0 t) :
    s.Performs
      (match Expression.commentText 0 s.cursor.ahead with
        | (length, true) => .token .comment length
        | (length, false) => .token .partialComment length)
      (found (commentText 0 t)) := by
  obtain ⟨htext, hkind⟩ := commentText_reads 0 t
  rw [hread.ahead, List.drop_zero] at htext hkind
  rw [found, hkind]
  rcases hcomment : Expression.commentText 0 s.cursor.ahead with ⟨length, closed⟩
  rw [hcomment] at htext
  cases closed with
  | true => exact ((hread.trans htext).of_eq (Nat.zero_add _)).token _
  | false => exact ((hread.trans htext).of_eq (Nat.zero_add _)).token _

theorem comment_performs (s : Session) :
    s.Performs (Expression.comment s.cursor.ahead) (comment s) := by
  unfold comment Expression.comment
  cases hs : s.cursor.ahead with
  | nil =>
    rw [peek_nil hs]
    exact (Session.Advances.refl s).exhausted
  | cons c cs =>
    simp only [peek_cons hs, List.isEmpty_cons, Bool.false_eq_true, if_false, next_cons,
      List.tail_cons]
    by_cases hcolon : (c == ':'.toNat) = true
    · simp only [hcolon, if_true, Bool.true_and]
      rcases bump_eat_cases (s.ahead_save.trans hs) ')' with ⟨ds, rfl, heat⟩ | ⟨hnext, heat⟩
      · simp only [heat]
        exact ((Session.Advances.refl s).save_bumps 2).pops _
      · simp only [heat, hnext, ← hs]
        exact commentText_performs (Session.advances_restore 1 s)
    · simp only [hcolon, Bool.false_and, ← hs]
      exact commentText_performs (.refl s)

/-! What is done behind a replaced state is done to the state that has been replaced. -/

theorem performs_of_set_keep {word : UInt32} {step : Step} {outcome : Option Kind × Session}
    (h : (s.set word).Performs step outcome) (hmove : step.move = .keep) :
    s.Performs (step.moving (.replace word.toNat)) outcome := by
  refine ⟨h.kind, ⟨h.reads.calls, h.reads.cursor⟩, ?_⟩
  have hstack := h.stack
  rw [hmove] at hstack
  rw [hstack]
  simp [Session.set, Session.push, Session.pop, Step.moving, StackMove.apply, List.map_tail]

theorem performs_of_set_pop {word : UInt32} {step : Step} {outcome : Option Kind × Session}
    (h : (s.set word).Performs step outcome) (hmove : step.move = .pop) :
    s.Performs step outcome := by
  refine ⟨h.kind, ⟨h.reads.calls, h.reads.cursor⟩, ?_⟩
  rw [h.stack, hmove]
  simp [Session.set, Session.push, Session.pop, StackMove.apply, List.map_tail]

theorem docMarker_performs (s : Session) :
    s.Performs (Expression.docMarker s.cursor.ahead) (docMarker s) := by
  unfold docMarker Expression.docMarker
  have hahead : (s.set Mode.comment.word).cursor.ahead = s.cursor.ahead := rfl
  by_cases htilde : next '~' s.cursor.ahead = true
  · rw [if_pos htilde, Session.eat_pos (by rw [hahead]; exact htilde)]
    exact (Session.advances_bumps 1 s).sets _ Mode.comment.word
  · rw [if_neg htilde, Session.eat_neg (by rw [hahead]; exact htilde)]
    have hcomment := comment_performs (s.set Mode.comment.word)
    rw [hahead] at hcomment
    rcases comment_move s.cursor.ahead with hmove | hmove
    · simp only [hmove]
      exact performs_of_set_keep hcomment hmove
    · simp only [hmove]
      exact performs_of_set_pop hcomment hmove

/-! ### Pragmas -/

theorem pragmaEnd_cases (s : Session) :
    (atPragmaEnd s.cursor.ahead = true ∧ pragmaEnd s = (true, (s.save.bumps 2).pop)) ∨
      (atPragmaEnd s.cursor.ahead = false ∧
        ∃ n, pragmaEnd s = (false, (s.save.bumps n).restore)) := by
  unfold pragmaEnd atPragmaEnd
  by_cases hhash : next '#' s.cursor.ahead = true
  · cases hs : s.cursor.ahead with
    | nil => 
      rw [hs] at hhash
      cases hhash
    | cons c cs =>
      have hsaved := s.ahead_save.trans hs
      rw [Session.eat_pos (by rw [s.ahead_save]; exact hhash)]
      rw [hs] at hhash
      simp only [hhash, Bool.true_and, List.tail_cons, if_true]
      rcases bump_eat_cases hsaved ')' with ⟨ds, rfl, heat⟩ | ⟨hnext, heat⟩
      · rw [Session.bumps_one, heat]
        exact .inl ⟨rfl, rfl⟩
      · rw [Session.bumps_one, heat]
        exact .inr ⟨hnext, 1, rfl⟩
  · rw [Session.eat_neg (by rw [s.ahead_save]; exact hhash), (Bool.not_eq_true _).mp hhash]
    refine .inr ⟨rfl, 0, ?_⟩
    rw [Session.bumps_zero]
    rfl

theorem pragmaNamePart_advances (hs : s.cursor.ahead = c :: cs) :
    ∃ kind n, Expression.pragmaNamePart c cs = .token kind n ∧ (pragmaNamePart s).1 = kind ∧
      s.Advances n (pragmaNamePart s).2 := by
  unfold pragmaNamePart Expression.pragmaNamePart
  rw [charClass_cons hs]
  cases CharClass.of c with
  | nameStartChar =>
    simp only [ncName_eq hs]
    exact ⟨_, _, rfl, rfl, Session.advances_bumps _ s⟩
  | _ => exact ⟨_, _, rfl, rfl, Session.advances_bumps 1 s⟩

/-- Up to the class of the first code point, a token in front of a pragma's name and one of it are
found in the same way. -/
theorem pragmaName_performs (first : Bool) (s : Session) :
    s.Performs
      (if first then pragmaStart s.cursor.ahead else Expression.pragmaName s.cursor.ahead)
      (pragmaName first s) := by
  unfold pragmaName pragmaStart Expression.pragmaName
  rcases pragmaEnd_cases s with ⟨hend, heq⟩ | ⟨hend, n, heq⟩
  · rw [heq, hend]
    simp only [if_true, ite_self]
    exact ((Session.Advances.refl s).save_bumps 2).pops _
  · have hread := Session.advances_restore n s
    have hahead := hread.ahead
    simp only [heq, hend, Bool.false_eq_true, if_false]
    generalize (s.save.bumps n).restore = t at *
    rw [List.drop_zero] at hahead
    cases hs : s.cursor.ahead with
    | nil =>
      simp only [charClass_nil (hahead.trans hs), if_true, ite_self]
      exact hread.exhausted
    | cons c cs =>
      have ht := hahead.trans hs
      simp only [charClass_cons ht, of_ne_endOfBuffer c, if_false]
      by_cases hblank : CharClass.of c = .whitespace
      · have hblanks := (hread.bumps (1 + blanks cs)).of_eq (Nat.zero_add _)
        simp only [hblank, if_true, eatWhile_isBlank ht hblank]
        cases first with
        | true => exact hblanks.token _
        | false => exact hblanks.sets _ Mode.pragmaContents.word
      · obtain ⟨kind, m, hpart, hkind, hadvances⟩ := pragmaNamePart_advances ht
        have hname := (hread.trans hadvances).of_eq (Nat.zero_add _)
        simp only [hblank, if_false, hpart, hkind]
        cases first with
        | true => exact hname.sets _ Mode.pragmaName.word
        | false => exact hname.token _

/-- A code point that does not begin the end tag belongs to the text. -/
theorem pragmaText_after {u : Session} (hs : s.cursor.ahead = c :: cs)
    (hend : atPragmaEnd (c :: cs) = false) (hread : s.Advances 1 t)
    (h : t.Advances (Expression.pragmaText t.cursor.ahead) u) :
    s.Advances (Expression.pragmaText s.cursor.ahead) u := by
  rw [hread.ahead, hs, List.drop_one, List.tail_cons] at h
  rw [hs, Expression.pragmaText, hend]
  exact (hread.trans h).of_eq (Nat.add_comm _ _)

theorem pragmaText_advances (s : Session) :
    s.Advances (Expression.pragmaText s.cursor.ahead) (pragmaText s) := by
  fun_induction pragmaText s with
  | case1 s hnone =>
    rw [Session.ahead_of_peek_none hnone]
    exact .refl s
  | case2 s c hsome hhash closed hclosed =>
    obtain ⟨cs, hcs⟩ := ahead_of_peek_some hsome
    rcases bump_eat_cases (s.ahead_save.trans hcs) ')' with ⟨ds, rfl, heat⟩ | ⟨_, heat⟩
    · have hend : atPragmaEnd (c :: ')'.toNat :: ds) = true := by
        rw [atPragmaEnd, next_cons, hhash]
        rfl
      rw [hcs, Expression.pragmaText, if_pos hend, show closed = _ from heat]
      exact Session.advances_restore 2 s
    · rw [show closed = _ from heat] at hclosed
      cases hclosed
  | case3 s c hsome hhash closed hclosed ih =>
    obtain ⟨cs, hcs⟩ := ahead_of_peek_some hsome
    rcases bump_eat_cases (s.ahead_save.trans hcs) ')' with ⟨_, _, heat⟩ | ⟨hnext, heat⟩
    · exact absurd (by rw [show closed = _ from heat]) hclosed
    · have hend : atPragmaEnd (c :: cs) = false := by
        rw [atPragmaEnd, List.tail_cons, hnext, Bool.and_false]
      rw [show closed = _ from heat] at ih ⊢
      exact pragmaText_after hcs hend ((Session.Advances.refl s).save_bumps 1) ih
  | case4 s c hsome hhash ih =>
    obtain ⟨cs, hcs⟩ := ahead_of_peek_some hsome
    have hend : atPragmaEnd (c :: cs) = false := by
      rw [atPragmaEnd, next_cons, (Bool.not_eq_true _).mp hhash, Bool.false_and]
    exact pragmaText_after hcs hend (Session.advances_bumps 1 s) ih

theorem pragmaContents_performs (s : Session) :
    s.Performs (Expression.pragmaContents s.cursor.ahead) (pragmaContents s) := by
  unfold pragmaContents Expression.pragmaContents
  rcases pragmaEnd_cases s with ⟨hend, heq⟩ | ⟨hend, n, heq⟩
  · rw [heq, hend]
    exact ((Session.Advances.refl s).save_bumps 2).pops _
  · have hread := Session.advances_restore n s
    have hahead := hread.ahead
    simp only [heq, hend, Bool.false_eq_true, if_false]
    generalize (s.save.bumps n).restore = t at *
    rw [List.drop_zero] at hahead
    cases hs : s.cursor.ahead with
    | nil =>
      simp only [peek_nil (hahead.trans hs)]
      exact hread.exhausted
    | cons c cs =>
      have htext := pragmaText_advances t
      simp only [peek_cons (hahead.trans hs)]
      rw [hahead, hs] at htext
      exact ((hread.trans htext).of_eq (Nat.zero_add _)).token _

/-! ### All modes -/

theorem scan_performs (mode : Mode) (hpoised : s.cursor.start = s.cursor.stop) :
    ∃ outcome, scan mode s = some outcome ∧
      s.Performs (Expression.scan mode s.cursor.ahead) outcome := by
  cases mode with
  | plain => exact plain_performs hpoised
  | quoted => exact ⟨_, rfl, string_performs '"' s⟩
  | apostrophed => exact ⟨_, rfl, string_performs '\'' s⟩
  | comment => exact ⟨_, rfl, comment_performs s⟩
  | pragmaStart => exact ⟨_, rfl, pragmaName_performs true s⟩
  | pragmaName => exact ⟨_, rfl, pragmaName_performs false s⟩
  | pragmaContents => exact ⟨_, rfl, pragmaContents_performs s⟩
  | bracedUri => exact ⟨_, rfl, bracedUri_performs s⟩
  | docMarker => exact ⟨_, rfl, docMarker_performs s⟩

end Work

/-- The expression lexer at work never fails, and it finds the tokens of its rule. -/
theorem work_implements : Work.Implements work rule := fun state _ hpoised =>
  Work.scan_performs (Mode.ofCode state.toNat) hpoised

end XQuery.Expression
