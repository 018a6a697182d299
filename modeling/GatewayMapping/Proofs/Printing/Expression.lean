import GatewayMapping.Template.Reader

/-!
# Expressions as texts

An expression is written with its operators between blanks, as a sign or as a word, and in
parentheses only where the levels of the operators ask for them: the operand of an operator may
hold operators of tighter levels, and the left operand those of its own level as well, since
operators of two operands group to the left. Strings stand in single quotes with every single
quote doubled, references in braces.

`Expr.IsPlain` are the expressions that can be written like this: all but doubles, double-quoted
strings with references or directives inside, and negative numbers, which are read as operators.

## Main definitions

* `Written`: a text is an expression, written where a level is asked for.
* `Expr.IsPlain`: the expressions with such a text.

## Main results

* `exists_written`: they have one at every level.
-/

namespace GatewayMapping.Template

/-! ### Operators -/

/-- The level of an operator of two operands, the loosest first. -/
def BinaryOp.level : BinaryOp → Nat
  | .or => 0
  | .and => 1
  | .eq | .ne => 2
  | .lt | .le | .gt | .ge => 3
  | .add | .sub => 4
  | .mul | .div | .mod => 5

/-- The level of the operators of one operand. -/
def unaryLevel : Nat := 6

/-- The level of the outermost operator of an expression; without one it is above all levels. -/
def Expr.level : Expr → Nat
  | .binary op _ _ _ => op.level
  | .unary _ _ _ => unaryLevel
  | _ => unaryLevel + 1

/-- A text is the sign or the word of an operator of two operands. -/
def BinaryOp.Spelled (op : BinaryOp) (s : List Char) : Prop := s = op.symbol ∨ op.word? = some s

/-- A text is the sign or the word of an operator of one operand. -/
def UnaryOp.Spelled (op : UnaryOp) (s : List Char) : Prop :=
  s = op.symbol ∨ op = .not ∧ s = ['n', 'o', 't']

/-! ### Blanks, names and quotes -/

/-- Nothing but blanks, or nothing at all. -/
def Blanks (bs : List Char) : Prop := ∀ c ∈ bs, isExprBlank c = true

/-- One blank or several of them. -/
def BlankRun (bs : List Char) : Prop := bs ≠ [] ∧ Blanks bs

/-- The names of variables and members. -/
def IsName (s : String) : Prop :=
  ∃ c cs, s.toList = c :: cs ∧ isNameStart c = true ∧ ∀ d ∈ cs, isNameChar d = true

/-- A text with a character written twice wherever it occurs. -/
def doubled (quote : Char) : List Char → List Char
  | [] => []
  | c :: cs => if c = quote then c :: c :: doubled quote cs else c :: doubled quote cs

/-! ### Texts -/

mutual

/-- The text is an expression, written where operators have to be of level `k` or of a tighter
one. -/
inductive Written : Nat → Expr → List Char → Prop
  | null {k} : Written k .null ['n', 'u', 'l', 'l']
  | true {k} : Written k (.bool true) ['t', 'r', 'u', 'e']
  | false {k} : Written k (.bool false) ['f', 'a', 'l', 's', 'e']
  | int {k n} (hn : 0 ≤ n.toInt) : Written k (.int n) (Nat.toDigits 10 n.toInt.toNat)
  | string {k s} : Written k (.string s) ('\'' :: (doubled '\'' s.toList ++ ['\'']))
  | list {k es cs} (hes : WrittenItems es cs) : Written k (.list es) ('[' :: (cs ++ [']']))
  | range {k first last cs ds} (hfirst : WrittenAfterBlanks first cs)
      (hlast : WrittenAfterBlanks last ds) :
      Written k (.range first last) ('[' :: (cs ++ '.' :: '.' :: (ds ++ [']'])))
  | map {k entries cs} (hentries : WrittenEntries entries cs) :
      Written k (.map entries) ('\x7b' :: (cs ++ ['\x7d']))
  | reference {k name path quiet literal position cs} (hname : IsName name)
      (hpath : WrittenPath path cs) :
      Written k (.reference (.mk name path quiet literal position))
        ('$' :: ((if quiet then ['!'] else []) ++ '\x7b' :: (name.toList ++ (cs ++ ['\x7d']))))
  | unary {k op operand position s bs cs} (hs : UnaryOp.Spelled op s) (hbs : BlankRun bs)
      (hoperand : Written unaryLevel operand cs) :
      Written k (.unary op operand position) (s ++ (bs ++ cs))
  | binary {k op left right position cs bs s bs' ds} (hk : k ≤ op.level)
      (hleft : Written op.level left cs) (hbs : BlankRun bs) (hs : BinaryOp.Spelled op s)
      (hbs' : BlankRun bs') (hright : Written (op.level + 1) right ds) :
      Written k (.binary op left right position) (cs ++ (bs ++ (s ++ (bs' ++ ds))))
  | paren {k e cs} (hk : e.level < k) (h : WrittenAfterBlanks e cs) :
      Written k e ('(' :: (cs ++ [')']))

/-- The text is an expression of any level, which blanks may stand before. -/
inductive WrittenAfterBlanks : Expr → List Char → Prop
  | mk {e bs cs} (hbs : Blanks bs) (h : Written 0 e cs) : WrittenAfterBlanks e (bs ++ cs)

/-- The text is a sequence of expressions between brackets. -/
inductive WrittenItems : List Expr → List Char → Prop
  | nil : WrittenItems [] []
  | cons {e es cs ds} (h : WrittenAfterBlanks e cs) (hes : WrittenMoreItems es ds) :
      WrittenItems (e :: es) (cs ++ ds)

/-- The text is what follows the first expression of a sequence. -/
inductive WrittenMoreItems : List Expr → List Char → Prop
  | nil : WrittenMoreItems [] []
  | cons {e es cs ds} (h : WrittenAfterBlanks e cs) (hes : WrittenMoreItems es ds) :
      WrittenMoreItems (e :: es) (',' :: (cs ++ ds))

/-- The text is a key with its value. -/
inductive WrittenEntry : Expr × Expr → List Char → Prop
  | mk {key value cs ds} (hkey : WrittenAfterBlanks key cs) (hvalue : WrittenAfterBlanks value ds) :
      WrittenEntry (key, value) (cs ++ ':' :: ds)

/-- The text is a sequence of keys with their values. -/
inductive WrittenEntries : List (Expr × Expr) → List Char → Prop
  | nil : WrittenEntries [] []
  | cons {e es cs ds} (h : WrittenEntry e cs) (hes : WrittenMoreEntries es ds) :
      WrittenEntries (e :: es) (cs ++ ds)

/-- The text is what follows the first key and its value. -/
inductive WrittenMoreEntries : List (Expr × Expr) → List Char → Prop
  | nil : WrittenMoreEntries [] []
  | cons {e es cs ds} (h : WrittenEntry e cs) (hes : WrittenMoreEntries es ds) :
      WrittenMoreEntries (e :: es) (',' :: (cs ++ ds))

/-- The text is the path of a reference. -/
inductive WrittenPath : List Segment → List Char → Prop
  | nil : WrittenPath [] []
  | property {name path cs} (hname : IsName name) (hpath : WrittenPath path cs) :
      WrittenPath (.property name :: path) ('.' :: (name.toList ++ cs))
  | method {name args path cs ds} (hname : IsName name) (hargs : WrittenItems args cs)
      (hpath : WrittenPath path ds) :
      WrittenPath (.method name args :: path) ('.' :: (name.toList ++ '(' :: (cs ++ ')' :: ds)))
  | index {i path cs ds} (hi : WrittenAfterBlanks i cs) (hpath : WrittenPath path ds) :
      WrittenPath (.index i :: path) ('[' :: (cs ++ ']' :: ds))

end

/-! ### Expressions with a text -/

mutual

/-- An expression without doubles, negative numbers and templates inside. -/
def Expr.IsPlain : Expr → Prop
  | .null => True
  | .bool _ => True
  | .int n => 0 ≤ n.toInt
  | .float _ => False
  | .string _ => True
  | .interpolated _ => False
  | .list items => PlainExprs items
  | .range first last => first.IsPlain ∧ last.IsPlain
  | .map entries => PlainEntries entries
  | .reference r => r.IsPlain
  | .unary _ operand _ => operand.IsPlain
  | .binary _ left right _ => left.IsPlain ∧ right.IsPlain

def PlainExprs : List Expr → Prop
  | [] => True
  | e :: es => e.IsPlain ∧ PlainExprs es

def PlainEntries : List (Expr × Expr) → Prop
  | [] => True
  | (key, value) :: entries => (key.IsPlain ∧ value.IsPlain) ∧ PlainEntries entries

/-- A reference with names for its variable and members and with plain expressions inside. -/
def Reference.IsPlain : Reference → Prop
  | .mk name path _ _ _ => IsName name ∧ PlainPath path

def PlainPath : List Segment → Prop
  | [] => True
  | s :: path => s.IsPlain ∧ PlainPath path

def Segment.IsPlain : Segment → Prop
  | .property name => IsName name
  | .method name args => IsName name ∧ PlainExprs args
  | .index i => i.IsPlain

end

theorem Blanks.nil : Blanks [] := List.forall_mem_nil _

theorem BlankRun.blank : BlankRun [' '] :=
  ⟨List.cons_ne_nil _ _, List.forall_mem_singleton.mpr rfl⟩

/-- What has a text where any level may stand has one where a level is asked for: if the level is
too tight, in parentheses. -/
theorem Written.atLevel {e : Expr} {cs : List Char} (h : Written 0 e cs) (k : Nat)
    (hk : k ≤ e.level → Written k e cs) : ∃ cs, Written k e cs := by
  by_cases hle : k ≤ e.level
  · exact ⟨cs, hk hle⟩
  · exact ⟨_, .paren (Nat.lt_of_not_le hle) (.mk .nil h)⟩

mutual

theorem exists_written : (e : Expr) → e.IsPlain → ∀ k, ∃ cs, Written k e cs
  | .null, _, _ => ⟨_, .null⟩
  | .bool true, _, _ => ⟨_, .true⟩
  | .bool false, _, _ => ⟨_, .false⟩
  | .int _, hn, _ => ⟨_, .int hn⟩
  | .string _, _, _ => ⟨_, .string⟩
  | .list items, hitems, _ =>
      have ⟨_, hcs⟩ := exists_writtenItems items hitems
      ⟨_, .list hcs⟩
  | .range first last, ⟨hfirst, hlast⟩, _ =>
      have ⟨_, hcs⟩ := exists_writtenAfterBlanks first hfirst
      have ⟨_, hds⟩ := exists_writtenAfterBlanks last hlast
      ⟨_, .range hcs hds⟩
  | .map entries, hentries, _ =>
      have ⟨_, hcs⟩ := exists_writtenEntries entries hentries
      ⟨_, .map hcs⟩
  | .reference (.mk _ path _ _ _), ⟨hname, hpath⟩, _ =>
      have ⟨_, hcs⟩ := exists_writtenPath path hpath
      ⟨_, .reference hname hcs⟩
  | .unary op operand _, hoperand, _ =>
      have ⟨_, hcs⟩ := exists_written operand hoperand unaryLevel
      ⟨_, .unary (.inl rfl) .blank hcs⟩
  | .binary op left right position, ⟨hleft, hright⟩, k => by
      obtain ⟨cs, hcs⟩ := exists_written left hleft op.level
      obtain ⟨ds, hds⟩ := exists_written right hright (op.level + 1)
      have hat (k : Nat) (hk : k ≤ op.level) :
          Written k (.binary op left right position) _ :=
        .binary hk hcs .blank (.inl rfl) .blank hds
      exact (hat 0 (Nat.zero_le _)).atLevel k (hat k)

theorem exists_writtenAfterBlanks (e : Expr) (he : e.IsPlain) : ∃ cs, WrittenAfterBlanks e cs :=
  have ⟨_, hcs⟩ := exists_written e he 0
  ⟨_, .mk .nil hcs⟩

theorem exists_writtenItems : (es : List Expr) → PlainExprs es → ∃ cs, WrittenItems es cs
  | [], _ => ⟨[], .nil⟩
  | e :: es, ⟨he, hes⟩ =>
      have ⟨_, hcs⟩ := exists_writtenAfterBlanks e he
      have ⟨_, hds⟩ := exists_writtenMoreItems es hes
      ⟨_, .cons hcs hds⟩

theorem exists_writtenMoreItems : (es : List Expr) → PlainExprs es → ∃ cs, WrittenMoreItems es cs
  | [], _ => ⟨[], .nil⟩
  | e :: es, ⟨he, hes⟩ =>
      have ⟨_, hcs⟩ := exists_writtenAfterBlanks e he
      have ⟨_, hds⟩ := exists_writtenMoreItems es hes
      ⟨_, .cons hcs hds⟩

theorem exists_writtenEntries :
    (entries : List (Expr × Expr)) → PlainEntries entries → ∃ cs, WrittenEntries entries cs
  | [], _ => ⟨[], .nil⟩
  | (key, value) :: entries, ⟨⟨hkey, hvalue⟩, hentries⟩ =>
      have ⟨_, hcs⟩ := exists_writtenAfterBlanks key hkey
      have ⟨_, hds⟩ := exists_writtenAfterBlanks value hvalue
      have ⟨_, hmore⟩ := exists_writtenMoreEntries entries hentries
      ⟨_, .cons (.mk hcs hds) hmore⟩

theorem exists_writtenMoreEntries :
    (entries : List (Expr × Expr)) → PlainEntries entries → ∃ cs, WrittenMoreEntries entries cs
  | [], _ => ⟨[], .nil⟩
  | (key, value) :: entries, ⟨⟨hkey, hvalue⟩, hentries⟩ =>
      have ⟨_, hcs⟩ := exists_writtenAfterBlanks key hkey
      have ⟨_, hds⟩ := exists_writtenAfterBlanks value hvalue
      have ⟨_, hmore⟩ := exists_writtenMoreEntries entries hentries
      ⟨_, .cons (.mk hcs hds) hmore⟩

theorem exists_writtenPath : (path : List Segment) → PlainPath path → ∃ cs, WrittenPath path cs
  | [], _ => ⟨[], .nil⟩
  | .property _ :: path, ⟨hname, hpath⟩ =>
      have ⟨_, hcs⟩ := exists_writtenPath path hpath
      ⟨_, .property hname hcs⟩
  | .method _ args :: path, ⟨⟨hname, hargs⟩, hpath⟩ =>
      have ⟨_, hcs⟩ := exists_writtenItems args hargs
      have ⟨_, hds⟩ := exists_writtenPath path hpath
      ⟨_, .method hname hcs hds⟩
  | .index i :: path, ⟨hi, hpath⟩ =>
      have ⟨_, hcs⟩ := exists_writtenAfterBlanks i hi
      have ⟨_, hds⟩ := exists_writtenPath path hpath
      ⟨_, .index hcs hds⟩

end

end GatewayMapping.Template
