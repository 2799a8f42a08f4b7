import XQuery.Name.Expanded
import XQuery.Name.Namespace

/-!
# Function signatures

Which functions a query may call, and with how many arguments. A name may be registered with
several ranges of arity, which may overlap; a call takes the most specific one that accepts it.
-/

namespace XQuery

/-- The arities that one overload accepts; without `max` there is no upper bound. -/
structure ArityRange where
  min : Nat
  max : Option Nat
deriving DecidableEq

namespace ArityRange

/-- Whether the overload accepts `arity` arguments. -/
def contains (r : ArityRange) (arity : Nat) : Bool :=
  r.min ≤ arity && (match r.max with | some max => arity ≤ max | none => true)

/-- Whether `r` is strictly more specific than `s`: it has the greater minimum or, at equal minima,
the smaller maximum. -/
def moreSpecific (r s : ArityRange) : Bool :=
  s.min < r.min ||
    (r.min == s.min &&
      match r.max, s.max with
      | some a, some b => a < b
      | some _, none => true
      | none, _ => false)

theorem moreSpecific_iff {r s : ArityRange} :
    r.moreSpecific s ↔ s.min < r.min ∨ r.min = s.min ∧
      ∃ a, r.max = some a ∧ ∀ b, s.max = some b → a < b := by
  obtain ⟨rmin, rmax⟩ := r
  obtain ⟨smin, smax⟩ := s
  cases rmax <;> cases smax <;> simp [moreSpecific]

theorem moreSpecific_trans {r s t : ArityRange} (hrs : r.moreSpecific s)
    (hst : s.moreSpecific t) : r.moreSpecific t := by
  rw [moreSpecific_iff] at *
  rcases hrs with hrs | ⟨hrs, a, ha, hab⟩
  · rcases hst with hst | ⟨hst, _⟩
    · exact .inl (by omega)
    · exact .inl (by omega)
  · rcases hst with hst | ⟨hst, b, hb, hbc⟩
    · exact .inl (by omega)
    · refine .inr ⟨by omega, a, ha, fun c hc => ?_⟩
      exact Nat.lt_trans (hab b hb) (hbc c hc)

/-- Of two ranges one is more specific, unless they are the same. -/
theorem moreSpecific_of_not {r s : ArityRange} (hne : r ≠ s) (h : ¬r.moreSpecific s) :
    s.moreSpecific r := by
  obtain ⟨rmin, rmax⟩ := r
  obtain ⟨smin, smax⟩ := s
  cases rmax <;> cases smax <;> simp [moreSpecific] at * <;> omega

/-- Put a range in front of the less specific ones; one that is listed already is not added. -/
def insertInto (r : ArityRange) : List ArityRange → List ArityRange
  | [] => [r]
  | s :: rs =>
      if r = s then s :: rs
      else if r.moreSpecific s then r :: s :: rs
      else s :: insertInto r rs

theorem mem_insertInto {r t : ArityRange} {rs : List ArityRange} :
    t ∈ r.insertInto rs ↔ t = r ∨ t ∈ rs := by
  induction rs with
  | nil => simp [insertInto]
  | cons s rs ih =>
    unfold insertInto
    split
    · next heq => simp [heq]
    · split
      · simp
      · simp only [List.mem_cons, ih]
        exact or_left_comm

/-- Every range is more specific than those behind it. -/
abbrev Ordered (rs : List ArityRange) : Prop := rs.Pairwise fun r s => r.moreSpecific s

theorem Ordered.insertInto {rs : List ArityRange} (h : Ordered rs) (r : ArityRange) :
    Ordered (r.insertInto rs) := by
  induction rs with
  | nil => exact List.pairwise_singleton _ _
  | cons s rs ih =>
    obtain ⟨hs, hrs⟩ := List.pairwise_cons.mp h
    unfold ArityRange.insertInto
    split
    · exact h
    · next hne =>
        split
        · next hlt =>
            refine List.pairwise_cons.mpr ⟨?_, h⟩
            intro t ht
            rcases List.mem_cons.mp ht with rfl | ht
            · exact hlt
            · exact moreSpecific_trans hlt (hs t ht)
        · next hlt =>
            refine List.pairwise_cons.mpr ⟨?_, ih hrs⟩
            intro t ht
            rcases mem_insertInto.mp ht with rfl | ht
            · exact moreSpecific_of_not hne hlt
            · exact hs t ht

/-- The arities of a bounded range, in order. -/
def arities (r : ArityRange) : List Nat :=
  match r.max with
  | some max => List.range' r.min (max + 1 - r.min)
  | none => []

end ArityRange

/-- Why a function call cannot be resolved. -/
inductive ResolveError where
  /-- No function has the name. -/
  | unknown (name : ExpandedName)
  /-- The function does not accept the arity. The arities below `variadicFrom` that it accepts are
  listed, and from `variadicFrom` on it accepts all. -/
  | wrongArity (name : ExpandedName) (available : List Nat) (variadicFrom : Option Nat)
deriving DecidableEq

/-- What the error says. -/
def ResolveError.message : ResolveError → String
  | unknown name => "unknown function " ++ name.text
  | wrongArity name available variadicFrom =>
      let known := available.map toString ++ (variadicFrom.map fun n => toString n ++ "..").toList
      "function " ++ name.text ++ " has no overload accepting the requested arity (known arities: "
        ++ ", ".intercalate known ++ ")"

/-- A resolved call: the function that is called and the overload that accepts the arity. -/
structure ResolvedFunction where
  name : ExpandedName
  arity : ArityRange
deriving DecidableEq

/-- The overloads of one name: its ranges, the most specific first and none twice. -/
structure Overloads where
  ranges : List ArityRange
  ordered : ArityRange.Ordered ranges

namespace Overloads

/-- A name that has no overload yet. -/
def none : Overloads := ⟨[], .nil⟩

/-- Add an overload. -/
def add (o : Overloads) (range : ArityRange) : Overloads :=
  ⟨range.insertInto o.ranges, o.ordered.insertInto range⟩

/-- The first overload that accepts the arity. -/
def find? (o : Overloads) (arity : Nat) : Option ArityRange := o.ranges.find? (·.contains arity)

end Overloads

/-- The registered names with their overloads. -/
structure Signatures where
  table : List (ExpandedName × Overloads) := []

namespace Signatures

/-- Add an overload to the entry of its name; a new name gets a new entry. -/
def insert (name : ExpandedName) (range : ArityRange) :
    List (ExpandedName × Overloads) → List (ExpandedName × Overloads)
  | [] => [(name, Overloads.none.add range)]
  | (n, overloads) :: table =>
      if n = name then (n, overloads.add range) :: table
      else (n, overloads) :: insert name range table

/-- Register an overload. -/
def register (s : Signatures) (name : ExpandedName) (range : ArityRange) : Signatures :=
  { table := insert name range s.table }

/-- The overloads of a name, if it is registered. -/
def overloads? (s : Signatures) (name : ExpandedName) : Option Overloads :=
  (s.table.find? (·.1 = name)).map (·.2)

/-- Whether some overload of the name accepts the arity. -/
def supports (s : Signatures) (name : ExpandedName) (arity : Nat) : Bool :=
  (s.overloads? name).any fun o => o.ranges.any (·.contains arity)

/-- The first overload of the name that accepts the arity, which is the most specific one. -/
def find? (s : Signatures) (name : ExpandedName) (arity : Nat) : Option ArityRange :=
  (s.overloads? name).bind (·.find? arity)

/-- The number of names that have overloads. -/
def count (s : Signatures) : Nat := s.table.length

/-- The least arity from which on a name accepts every arity. -/
def variadicFrom (ranges : List ArityRange) : Option Nat :=
  ((ranges.filter (·.max.isNone)).map (·.min)).min?

/-- Insert a number into an ascending list without repetition. -/
def insertArity (n : Nat) : List Nat → List Nat
  | [] => [n]
  | m :: ms => if n < m then n :: m :: ms else if n = m then m :: ms else m :: insertArity n ms

/-- The arities that bounded ranges accept below `limit`, ascending and without repetition. -/
def boundedArities (ranges : List ArityRange) (limit : Option Nat) : List Nat :=
  ((ranges.flatMap (·.arities)).filter
    fun a => match limit with | some n => a < n | none => true).foldr insertArity []

/-- The name that is called when a name without namespace is looked up in a default namespace. -/
def effectiveName (name : ExpandedName) (defaultUri : Option String) : ExpandedName :=
  match name.uri, defaultUri with
  | none, some uri => ⟨some uri, name.localName⟩
  | _, _ => name

/-- Look up a call in the overloads of one name. -/
def resolveExactly (s : Signatures) (name : ExpandedName) (arity : Nat) :
    Except ResolveError ResolvedFunction :=
  match s.overloads? name with
  | none => .error (.unknown name)
  | some overloads =>
      match overloads.find? arity with
      | some range => .ok ⟨name, range⟩
      | none =>
          let from? := variadicFrom overloads.ranges
          .error (.wrongArity name (boundedArities overloads.ranges from?) from?)

/-- Resolve a call. A name without namespace is first taken as it is, and otherwise in the default
namespace. -/
def resolve (s : Signatures) (name : ExpandedName) (arity : Nat) (defaultUri : Option String) :
    Except ResolveError ResolvedFunction :=
  match name.uri, s.find? name arity with
  | none, some range => .ok ⟨name, range⟩
  | _, _ => s.resolveExactly (effectiveName name defaultUri) arity

/-- Register overloads of one namespace, given as local name, least and greatest arity. -/
def registerAll (s : Signatures) (uri : String) (table : List (String × Nat × Option Nat)) :
    Signatures :=
  table.foldl (fun s (localName, min, max) => s.register ⟨some uri, localName⟩ ⟨min, max⟩) s

/-- The function library. -/
def libraryFunctions : List (String × Nat × Option Nat) :=
  [("abs", 1, some 1), ("avg", 1, some 1), ("boolean", 1, some 1), ("ceiling", 1, some 1),
   ("codepoints-to-string", 1, some 1), ("collection", 0, some 1), ("compare", 2, some 3),
   ("concat", 2, none), ("contains", 2, some 3), ("count", 1, some 1),
   ("current-dateTime", 0, some 0), ("data", 0, some 1), ("days-from-duration", 1, some 1),
   ("deep-equal", 2, some 3), ("distinct-values", 1, some 2), ("doc", 1, some 1),
   ("empty", 1, some 1), ("ends-with", 2, some 3), ("error", 0, some 3),
   ("exactly-one", 1, some 1), ("exists", 1, some 1), ("false", 0, some 0),
   ("floor", 1, some 1), ("hours-from-duration", 1, some 1), ("index-of", 2, some 3),
   ("last", 0, some 0), ("local-name", 0, some 1), ("lower-case", 1, some 1),
   ("matches", 2, some 3), ("max", 1, some 2), ("min", 1, some 2),
   ("minutes-from-duration", 1, some 1), ("months-from-duration", 1, some 1),
   ("name", 0, some 1), ("namespace-uri", 0, some 1), ("namespace-uri-for-prefix", 2, some 2),
   ("node-name", 0, some 1), ("normalize-space", 0, some 1), ("not", 1, some 1),
   ("number", 0, some 1), ("position", 0, some 0), ("QName", 2, some 2), ("replace", 3, some 4),
   ("resolve-QName", 2, some 2), ("reverse", 1, some 1), ("round", 1, some 2),
   ("seconds-from-duration", 1, some 1), ("starts-with", 2, some 3), ("string", 0, some 1),
   ("string-join", 1, some 2), ("string-length", 0, some 1), ("string-to-codepoints", 1, some 1),
   ("subsequence", 2, some 3), ("substring", 2, some 3), ("substring-after", 2, some 3),
   ("substring-before", 2, some 3), ("sum", 1, some 2), ("tokenize", 1, some 3),
   ("trace", 1, some 2), ("true", 0, some 0), ("upper-case", 1, some 1),
   ("years-from-duration", 1, some 1), ("zero-or-one", 1, some 1)]

/-- The mathematical functions. -/
def mathFunctions : List (String × Nat × Option Nat) :=
  [("cos", 1, some 1), ("exp", 1, some 1), ("log", 1, some 1), ("pi", 0, some 0),
   ("pow", 2, some 2), ("sin", 1, some 1), ("sqrt", 1, some 1)]

/-- The functions that a static context knows from the start. -/
def builtIn : Signatures :=
  (registerAll {} Namespace.functions libraryFunctions).registerAll Namespace.math mathFunctions

end Signatures

end XQuery
