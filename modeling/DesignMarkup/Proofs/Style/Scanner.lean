import DesignMarkup.Proofs.Style.Values
import DesignMarkup.Style.Table

/-!
# `Proofs.Style.Scanner` — stylesheets read back, character by character

A plain scanner of stylesheets, to compare written ones with. It knows nothing of the rules that are
written: a rule begins with a period and the name of its class, which runs to a blank; declarations stand
between braces; a property runs to a colon, and its hyphens are turned back into capital letters; a value
runs to the next semicolon, whatever stands before it, and what ends a rule or a line must not stand in it.

A stylesheet whose names are words and whose rules are made of declarations is read back as it is.

## Contents

* `camel`, `camel_propertyText`: properties in their first form; `propertyText_injective`;
* `Mode`, `Scanner`, `read`: the scanner;
* `run_gather`, `run_lines`: runs over characters that end nothing, and over lines;
* `run_property`, `run_value`, `run_declarationText`, `run_ruleText`: declarations and rules;
* `IsSheet`, `read_toCss`: **whole stylesheets**.
-/

namespace DesignMarkup.Css

open Style StyleTable

/-! ## Properties -/

/-- A property in its first form: a hyphen is turned into the capital form of the letter that follows. -/
def camel : List Char → List Char
  | [] => []
  | '-' :: c :: rest => c.toUpper :: camel rest
  | c :: rest => c :: camel rest

theorem camel_cons {c : Char} (h : c ≠ '-') (rest : List Char) : camel (c :: rest) = c :: camel rest := by
  rw [camel]
  exact fun _ _ hc _ => h hc

/-- What holds of every ASCII character holds of each of them. -/
theorem forall_ascii (holds : Char → Prop) (h : ∀ n < 128, holds (Char.ofNat n)) {c : Char}
    (hc : c.toNat < 128) : holds c := by
  have hn := h c.toNat hc
  rwa [Char.ofNat_toNat] at hn

theorem toNat_lt_of_isAlpha {c : Char} (h : c.isAlpha = true) : c.toNat < 128 := by
  have hletter : (decide ('A'.val ≤ c.val ∧ c.val ≤ 'Z'.val) ||
      (decide ('a'.val ≤ c.val) && decide (c.val ≤ 'z'.val))) = true := h
  simp only [Bool.or_eq_true, Bool.and_eq_true, decide_eq_true_eq, UInt32.le_iff_toNat_le] at hletter
  have hval : c.toNat = c.val.toNat := rfl
  have hupper : 'Z'.val.toNat = 90 := rfl
  have hlower : 'z'.val.toNat = 122 := rfl
  omega

/-- A letter is a capital one, with a small form, or a small one. -/
theorem letter_cases {c : Char} (h : c.isAlpha = true) :
    (c.isUpper = true ∧ c.toLower.isLower = true ∧ c.toLower.toUpper = c) ∨
      (c.isUpper = false ∧ c.toLower.isLower = true ∧ c.toLower = c) := by
  have hletters : ∀ n < 128, (Char.ofNat n).isAlpha = true →
      ((Char.ofNat n).isUpper = true ∧ (Char.ofNat n).toLower.isLower = true ∧
          (Char.ofNat n).toLower.toUpper = Char.ofNat n) ∨
        ((Char.ofNat n).isUpper = false ∧ (Char.ofNat n).toLower.isLower = true ∧
          (Char.ofNat n).toLower = Char.ofNat n) := by
    decide +kernel
  exact forall_ascii (fun c => c.isAlpha = true →
    (c.isUpper = true ∧ c.toLower.isLower = true ∧ c.toLower.toUpper = c) ∨
      (c.isUpper = false ∧ c.toLower.isLower = true ∧ c.toLower = c)) hletters (toNat_lt_of_isAlpha h) h

/-- The lowercase of ASCII characters is that of each. -/
theorem lowerAfter_ascii {cs : List Char} (h : ∀ c ∈ cs, c.toNat < 128) (before : List Char) :
    Text.lowerAfter before cs = cs.map Char.toLower := by
  have hlower : ∀ n < 128, Text.lowerChar (Char.ofNat n) = (Char.ofNat n).toLower := by
    decide +kernel
  induction cs generalizing before with
  | nil => rfl
  | cons c cs ih =>
    obtain ⟨hc, hcs⟩ := List.forall_mem_cons.mp h
    -- the two capital letters that are treated in a way of their own are beyond ASCII
    have hsigma : c ≠ 'Σ' := by
      rintro rfl
      exact absurd hc (by decide)
    have hdotted : c ≠ 'İ' := by
      rintro rfl
      exact absurd hc (by decide)
    have hchar : Text.lowerChar c = c.toLower :=
      forall_ascii (fun c => Text.lowerChar c = c.toLower) hlower hc
    rw [Text.lowerAfter, ih hcs, if_neg hsigma, if_neg hdotted, hchar, List.map_cons,
      List.singleton_append]

/-- A letter of a property in its written form. -/
def written (c : Char) : List Char :=
  if c.isUpper then ['-', c.toLower] else [c]

theorem toList_propertyText {name : String} (h : IsProperty name) :
    (propertyText name).toList = name.toList.flatMap written := by
  have hhyphen : '-'.toNat < 128 := by decide
  have hascii : ∀ c ∈ name.toList.flatMap fun c => if c.isUpper then ['-', c] else [c],
      c.toNat < 128 := by
    intro c hc
    obtain ⟨d, hd, hcd⟩ := List.mem_flatMap.mp hc
    have hlt := toNat_lt_of_isAlpha (h.2 d hd)
    split at hcd
    · rcases List.mem_cons.mp hcd with rfl | hcd
      · exact hhyphen
      · exact List.mem_singleton.mp hcd ▸ hlt
    · exact List.mem_singleton.mp hcd ▸ hlt
  rw [propertyText, String.toList_ofList, Text.lowercase, lowerAfter_ascii hascii, List.map_flatMap,
    List.flatMap_def, List.flatMap_def]
  refine congrArg List.flatten (List.map_congr_left fun c hc => ?_)
  unfold written
  obtain ⟨hupper, -, -⟩ | ⟨hupper, -, hlower⟩ := letter_cases (h.2 c hc)
  · rw [if_pos hupper, if_pos hupper]
    rfl
  · rw [if_neg (Bool.eq_false_iff.mp hupper), if_neg (Bool.eq_false_iff.mp hupper), List.map_singleton,
      hlower]

/-- **A written property has its first form back.** -/
theorem camel_propertyText {name : String} (h : IsProperty name) :
    camel (propertyText name).toList = name.toList := by
  rw [toList_propertyText h]
  have hletters := h.2
  generalize name.toList = cs at hletters
  induction cs with
  | nil => rfl
  | cons c cs ih =>
    obtain ⟨hc, hcs⟩ := List.forall_mem_cons.mp hletters
    rw [List.flatMap_cons, written]
    obtain ⟨hupper, -, hback⟩ | ⟨hupper, hlower, hsame⟩ := letter_cases hc
    · rw [if_pos hupper, List.cons_append, List.singleton_append, camel, hback, ih hcs]
    · have hne : c ≠ '-' := by
        rintro rfl
        exact absurd hc (by decide)
      rw [if_neg (Bool.eq_false_iff.mp hupper), List.singleton_append, camel_cons hne, ih hcs]

/-- **Different properties are written differently.** -/
theorem propertyText_injective {name other : String} (h : IsProperty name) (h' : IsProperty other)
    (he : propertyText name = propertyText other) : name = other := by
  have hcamel := camel_propertyText h
  rw [he, camel_propertyText h'] at hcamel
  exact (String.toList_inj.mp hcamel).symm

/-- A written property is a word. -/
theorem isWord_propertyText {name : String} (h : IsProperty name) : IsWord (propertyText name) := by
  constructor
  · intro he
    have hcamel := camel_propertyText h
    rw [he] at hcamel
    have hempty : "".toList = name.toList := hcamel
    exact h.1 (String.toList_inj.mp hempty).symm
  · rw [toList_propertyText h]
    intro c hc
    obtain ⟨d, hd, hcd⟩ := List.mem_flatMap.mp hc
    have hword {x : Char} (hx : x.isLower = true) : isWordChar x = true := by
      rw [isWordChar, hx, Bool.true_or, Bool.true_or]
    rw [written] at hcd
    obtain ⟨hupper, hlower, -⟩ | ⟨hupper, hlower, hsame⟩ := letter_cases (h.2 d hd)
    · rw [if_pos hupper] at hcd
      rcases List.mem_cons.mp hcd with rfl | hcd
      · decide
      · exact List.mem_singleton.mp hcd ▸ hword hlower
    · rw [if_neg (Bool.eq_false_iff.mp hupper)] at hcd
      rw [hsame] at hlower
      exact List.mem_singleton.mp hcd ▸ hword hlower

/-! ## The scanner -/

/-- What ends a declaration, a rule or a line. -/
def endings : List Char :=
  [';', '\x7b', '\x7d', '\n']

/-- A text of which no character ends anything. -/
def EndsNothing (s : String) : Prop :=
  ∀ c ∈ s.toList, c ∉ endings

/-- Where the scanner stands. -/
inductive Mode where
  /-- Between rules. -/
  | outside
  /-- In the name of a class. -/
  | name (seen : List Char)
  /-- Before the brace that opens a rule. -/
  | opening (name : String)
  /-- Between the declarations of a rule. -/
  | inside (name : String) (declared : Declarations)
  /-- In a property. -/
  | property (name : String) (declared : Declarations) (seen : List Char)
  /-- Before the blank that precedes a value. -/
  | colon (name : String) (declared : Declarations) (property : String)
  /-- In a value. -/
  | value (name : String) (declared : Declarations) (property : String) (seen : List Char)

/-- The rules that were read, and where the scanner stands. -/
structure Scanner where
  rules : List (String × Declarations)
  mode : Mode

namespace Scanner

/-- **One character.** -/
def step (s : Scanner) (c : Char) : Option Scanner :=
  match s.mode with
  | .outside =>
    if c = '\n' then some s else if c = '.' then some ⟨s.rules, .name []⟩ else none
  | .name seen =>
    if c = ' ' then some ⟨s.rules, .opening (String.ofList seen)⟩
    else if c ∈ endings then none
    else some ⟨s.rules, .name (seen ++ [c])⟩
  | .opening name => if c = '\x7b' then some ⟨s.rules, .inside name []⟩ else none
  | .inside name declared =>
    if c = ' ' ∨ c = '\n' then some s
    else if c = '\x7d' then some ⟨s.rules ++ [(name, declared)], .outside⟩
    else some ⟨s.rules, .property name declared [c]⟩
  | .property name declared seen =>
    if c = ':' then some ⟨s.rules, .colon name declared (String.ofList (camel seen))⟩
    else if c ∈ endings then none
    else some ⟨s.rules, .property name declared (seen ++ [c])⟩
  | .colon name declared property =>
    if c = ' ' then some ⟨s.rules, .value name declared property []⟩ else none
  | .value name declared property seen =>
    if c = ';' then some ⟨s.rules, .inside name (declared ++ [(property, String.ofList seen)])⟩
    else if c ∈ endings then none
    else some ⟨s.rules, .value name declared property (seen ++ [c])⟩

/-- A run over several characters. -/
def run (s : Scanner) : List Char → Option Scanner
  | [] => some s
  | c :: cs => (s.step c).bind fun t => t.run cs

/-- What was read, if no rule is left open. -/
def finish (s : Scanner) : Option (List (String × Declarations)) :=
  match s.mode with
  | .outside => some s.rules
  | _ => none

end Scanner

/-- **The reading of a stylesheet**: its rules in order, or nothing if it is not made of rules. -/
def read (s : String) : Option (List (String × Declarations)) :=
  ((⟨[], .outside⟩ : Scanner).run s.toList).bind Scanner.finish

/-! ## Runs -/

namespace Scanner

variable {rules : List (String × Declarations)} {rest : List Char}

theorem run_cons {s t : Scanner} {c : Char} (h : s.step c = some t) (cs : List Char) :
    s.run (c :: cs) = t.run cs := by
  rw [run, h, Option.bind_some]

/-- **Characters that end nothing are gathered.** A mode that keeps each of some characters passes over them
all. -/
theorem run_gather (mode : List Char → Mode) {cs : List Char}
    (h : ∀ c ∈ cs, ∀ seen, step ⟨rules, mode seen⟩ c = some ⟨rules, mode (seen ++ [c])⟩) :
    ∀ seen, run ⟨rules, mode seen⟩ (cs ++ rest) = run ⟨rules, mode (seen ++ cs)⟩ rest := by
  -- what is pending grows at each step, so the induction is for every pending text
  induction cs with
  | nil => intro seen; rw [List.append_nil, List.nil_append]
  | cons c cs ih =>
    intro seen
    rw [List.cons_append, run_cons (h c List.mem_cons_self seen),
      ih (fun d hd => h d (List.mem_cons_of_mem c hd)), List.append_assoc, List.singleton_append]

/-- **Texts on lines of their own** are read one by one, if each of them is and line feeds between them are
passed over. -/
theorem run_lines {α : Type} {text : α → String} (stage : List α → Scanner) {as : List α}
    (htext : ∀ a ∈ as, ∀ done rest,
      (stage done).run ((text a).toList ++ rest) = (stage (done ++ [a])).run rest)
    (hline : ∀ done rest, (stage done).run ('\n' :: rest) = (stage done).run rest) :
    ∀ done rest, (stage done).run (("\n".intercalate (as.map text)).toList ++ rest) =
      (stage (done ++ as)).run rest := by
  have hfeed : "\n".toList = ['\n'] := rfl
  induction as with
  | nil =>
    intro done rest
    rw [List.append_nil]
    rfl
  | cons a as ih =>
    intro done rest
    obtain ⟨ha, has⟩ := List.forall_mem_cons.mp htext
    specialize ih has
    rw [String.toList_intercalate, hfeed] at ih ⊢
    by_cases hempty : as = []
    · rw [hempty, List.map_singleton, List.map_singleton, List.intercalate_singleton, ha]
    · have hne : (as.map text).map String.toList ≠ [] := by simpa using hempty
      rw [List.map_cons, List.map_cons, List.intercalate_cons_of_ne_nil hne, List.append_assoc,
        List.append_assoc, ha, List.singleton_append, hline, ih, List.append_assoc, List.singleton_append]

/-! ## Declarations and rules -/

/-- The characters of a word are no blanks, and they end nothing. -/
theorem ne_of_mem_word {s : String} (h : IsWord s) :
    ∀ c ∈ s.toList, c ≠ ' ' ∧ c ≠ ':' ∧ c ∉ endings := by
  intro c hc
  have hchar : isWordChar c = true := h.2 c hc
  refine ⟨?_, ?_, fun hm => ?_⟩
  · rintro rfl
    exact absurd hchar (by decide)
  · rintro rfl
    exact absurd hchar (by decide)
  · have hnone : ∀ c ∈ endings, (!isWordChar c) = true := List.all_eq_true.mp (by decide)
    exact absurd (hnone c hm) (by rw [hchar]; decide)

theorem endsNothing_of_isWord {s : String} (h : IsWord s) : EndsNothing s :=
  fun c hc => (ne_of_mem_word h c hc).2.2

theorem endsNothing_of_isValue {s : String} (h : IsValue s) : EndsNothing s := by
  intro c hc hm
  have hnone : ∀ c ∈ endings, (!isValueChar c) = true := List.all_eq_true.mp (by decide)
  have hchar := h c hc
  exact absurd (hnone c hm) (by rw [hchar]; decide)

/-- A property is read up to its colon, in its first form. -/
theorem run_property {property : String} (h : IsProperty property) (name : String)
    (declared : Declarations) (rest : List Char) :
    run ⟨rules, .inside name declared⟩ ((propertyText property).toList ++ ':' :: rest) =
      run ⟨rules, .colon name declared property⟩ rest := by
  have hword := isWord_propertyText h
  have hchars := ne_of_mem_word hword
  have hcamel := camel_propertyText h
  -- the first character must not be taken for a blank or for the end of the rule
  obtain ⟨c, cs, hcs⟩ : ∃ c cs, (propertyText property).toList = c :: cs :=
    List.exists_cons_of_ne_nil fun he => hword.1 (String.toList_inj.mp he)
  rw [hcs] at hchars hcamel ⊢
  obtain ⟨hblank, -, hending⟩ := hchars c List.mem_cons_self
  have hline : c ≠ '\n' := fun he => hending (he ▸ by decide)
  have hbrace : c ≠ '\x7d' := fun he => hending (he ▸ by decide)
  rw [List.cons_append,
    run_cons (t := ⟨rules, .property name declared [c]⟩) (by simp [step, hblank, hline, hbrace]),
    run_gather (.property name declared) ?_ [c],
    run_cons (t := ⟨rules, .colon name declared (String.ofList (camel (c :: cs)))⟩) (by simp [step]),
    hcamel, String.ofList_toList]
  intro d hd seen
  obtain ⟨-, hcolon, hending⟩ := hchars d (List.mem_cons_of_mem c hd)
  simp only [step, if_neg hcolon, if_neg hending]

/-- A value is read up to its semicolon. -/
theorem run_value {value : String} (h : EndsNothing value) (name : String) (declared : Declarations)
    (property : String) (rest : List Char) :
    run ⟨rules, .value name declared property []⟩ (value.toList ++ ';' :: rest) =
      run ⟨rules, .inside name (declared ++ [(property, value)])⟩ rest := by
  rw [run_gather (.value name declared property) ?_ [], List.nil_append,
    run_cons (t := ⟨rules, .inside name (declared ++ [(property, value)])⟩) (by simp [step])]
  intro c hc seen
  have hsemicolon : c ≠ ';' := fun he => h c hc (he ▸ by decide)
  simp only [step, if_neg hsemicolon, if_neg (h c hc)]

/-- **A declaration is read** as it was written. -/
theorem run_declarationText {d : String × String} (hd : IsDeclaration d) (name : String)
    (declared : Declarations) (rest : List Char) :
    run ⟨rules, .inside name declared⟩ ((declarationText d).toList ++ rest) =
      run ⟨rules, .inside name (declared ++ [d])⟩ rest := by
  have htext : (declarationText d).toList ++ rest =
      ' ' :: ' ' :: ((propertyText d.1).toList ++ ':' :: ' ' :: (d.2.toList ++ ';' :: rest)) := by
    simp [declarationText]
  rw [htext, run_cons (t := ⟨rules, .inside name declared⟩) (by simp [step]),
    run_cons (t := ⟨rules, .inside name declared⟩) (by simp [step]), run_property hd.property,
    run_cons (t := ⟨rules, .value name declared d.1 []⟩) (by simp [step]),
    run_value (endsNothing_of_isValue hd.value)]

/-- **A rule is read** as it was written. -/
theorem run_ruleText {rule : String × Declarations} (hname : IsWord rule.1)
    (hdeclared : ∀ d ∈ rule.2, IsDeclaration d) (rules : List (String × Declarations))
    (rest : List Char) :
    run ⟨rules, .outside⟩ ((ruleText rule.1 rule.2).toList ++ rest) =
      run ⟨rules ++ [rule], .outside⟩ rest := by
  have htext : (ruleText rule.1 rule.2).toList ++ rest =
      '\n' :: '.' :: (rule.1.toList ++ ' ' :: '\x7b' :: '\n' ::
        (("\n".intercalate (rule.2.map declarationText)).toList ++ '\n' :: '\x7d' :: '\n' :: rest)) := by
    simp [ruleText]
  have hlines := run_lines (fun done => ⟨rules, .inside rule.1 done⟩)
    (fun d hd done rest => run_declarationText (hdeclared d hd) rule.1 done rest)
    (fun done rest => run_cons (by simp [step]) rest) [] ('\n' :: '\x7d' :: '\n' :: rest)
  rw [htext, run_cons (t := ⟨rules, .outside⟩) (by simp [step]),
    run_cons (t := ⟨rules, .name []⟩) (by simp [step]), run_gather .name ?_ [], List.nil_append,
    run_cons (t := ⟨rules, .opening rule.1⟩) (by simp [step]),
    run_cons (t := ⟨rules, .inside rule.1 []⟩) (by simp [step]),
    run_cons (t := ⟨rules, .inside rule.1 []⟩) (by simp [step]), hlines, List.nil_append,
    run_cons (t := ⟨rules, .inside rule.1 rule.2⟩) (by simp [step]),
    run_cons (t := ⟨rules ++ [rule], .outside⟩) (by simp [step]),
    run_cons (t := ⟨rules ++ [rule], .outside⟩) (by simp [step])]
  intro c hc seen
  obtain ⟨hblank, -, hending⟩ := ne_of_mem_word hname c hc
  simp only [step, if_neg hblank, if_neg hending]

end Scanner

/-! ## Whole stylesheets -/

/-- A stylesheet whose names are words and whose rules are made of declarations. -/
def IsSheet (t : StyleTable) : Prop :=
  ∀ rule ∈ t.rules, IsWord rule.1 ∧ ∀ d ∈ rule.2, IsDeclaration d

/-- **A stylesheet is read back as it is**: the same rules in the same order. -/
theorem read_toCss {t : StyleTable} (h : IsSheet t) : read t.toCss = some t.rules := by
  have hlines := Scanner.run_lines (fun done => ⟨done, .outside⟩)
    (fun rule hrule done rest => Scanner.run_ruleText (h rule hrule).1 (h rule hrule).2 done rest)
    (fun done rest => Scanner.run_cons (by simp [Scanner.step]) rest) [] []
  rw [List.append_nil, List.nil_append] at hlines
  have htext : t.toCss = "\n".intercalate (t.rules.map fun rule => ruleText rule.1 rule.2) := rfl
  rw [read, htext, hlines]
  rfl

end DesignMarkup.Css
