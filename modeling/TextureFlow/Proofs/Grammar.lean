import Mathlib
import TextureFlow.CommandLine.Arguments

/-!
# The grammar of command lines

A command line spells items: a script is one word, settings are the word `--settings` and the word
after it, whatever that is. So a word has no meaning of its own, only one at its position. A command
line can be used if it spells items of which exactly one is a script; otherwise it spells items up
to a position from which it cannot be read on, and what stands there decides what the user is told.

* `Item.flatMap_words_injective`: a command line spells its items in one way;
* `Arguments.parseFrom_words`: what is known after some items have been read;
* `Arguments.written_or_offends`: a command line can be used, or stops at some position;
* `Arguments.parse_exact`: reading a command line says which.
-/

namespace TextureFlow
namespace CommandLine

/-! ## Items -/

/-- The words that are no script where an item may start. -/
def reserved : List String :=
  ["--settings", "-h", "--help"]

/-- What a command line spells. -/
inductive Item where
  | script (path : String) (plain : path ∉ reserved)
  | settings (path : String)

namespace Item

/-- How an item is spelled. -/
def words : Item → List String
  | script path _ => [path]
  | settings path => ["--settings", path]

def script? : Item → Option String
  | script path _ => some path
  | settings _ => none

def settings? : Item → Option String
  | script .. => none
  | settings path => some path

/-- The first item can be told from its first word. -/
theorem words_append_inj {item item' : Item} {rest rest' : List String}
    (h : item.words ++ rest = item'.words ++ rest') : item = item' ∧ rest = rest' := by
  cases item with
  | script path plain =>
    cases item' with
    | script path' plain' =>
      obtain ⟨rfl, hrest⟩ := List.cons.inj (show path :: rest = path' :: rest' from h)
      exact ⟨rfl, hrest⟩
    | settings path' =>
      obtain ⟨rfl, -⟩ := List.cons.inj (show path :: rest = "--settings" :: path' :: rest' from h)
      exact absurd List.mem_cons_self plain
  | settings path =>
    cases item' with
    | script path' plain' =>
      obtain ⟨rfl, -⟩ := List.cons.inj (show "--settings" :: path :: rest = path' :: rest' from h)
      exact absurd List.mem_cons_self plain'
    | settings path' =>
      have htail : path :: rest = path' :: rest' := List.tail_eq_of_cons_eq h
      obtain ⟨rfl, hrest⟩ := List.cons.inj htail
      exact ⟨rfl, hrest⟩

/-- A command line spells its items in one way. -/
theorem flatMap_words_injective {items items' : List Item}
    (h : items.flatMap words = items'.flatMap words) : items = items' := by
  have hne (item : Item) (rest : List String) : item.words ++ rest ≠ [] := by
    cases item <;> exact List.cons_ne_nil _ _
  induction items generalizing items' with
  | nil =>
    cases items' with
    | nil => rfl
    | cons item items' => exact absurd h.symm (hne item _)
  | cons item items ih =>
    cases items' with
    | nil => exact absurd h (hne item _)
    | cons item' items' =>
      rw [List.flatMap_cons, List.flatMap_cons] at h
      obtain ⟨rfl, htail⟩ := words_append_inj h
      rw [ih htail]

end Item

namespace Arguments

/-! ## Command lines -/

/-- The words spell one script and any number of settings, of which the last count. -/
def Written (words : List String) (a : Arguments) : Prop :=
  ∃ items : List Item, words = items.flatMap Item.words ∧
    items.filterMap Item.script? = [a.script] ∧
    (items.filterMap Item.settings?).getLast? = a.settings

/-- The words that are left cannot be read on, and the user is told why. What may follow depends on
the script that was named before, if any. -/
inductive Offence : Option String → List String → String → Prop where
  | help {named : Option String} {word : String} {rest : List String}
      (h : word = "-h" ∨ word = "--help") : Offence named (word :: rest) usage
  | noScript : Offence none [] usage
  | noPath {named : Option String} :
      Offence named ["--settings"] ("--settings needs a path\n" ++ usage)
  | second {script word : String} {rest : List String} (plain : word ∉ reserved) :
      Offence (some script) (word :: rest) ("unexpected argument '" ++ word ++ "'\n" ++ usage)

/-- The words spell items with at most one script, up to a first position that offends. -/
def Offends (words : List String) (text : String) : Prop :=
  ∃ (items : List Item) (named : Option String) (rest : List String),
    words = items.flatMap Item.words ++ rest ∧
    items.filterMap Item.script? = named.toList ∧ Offence named rest text

/-! ## Reading -/

section

variable {named settings : Option String} {word : String} {rest : List String}

theorem parseFrom_script (plain : word ∉ reserved) :
    parseFrom none settings (word :: rest) = parseFrom (some word) settings rest := by
  simp only [reserved, List.mem_cons, List.not_mem_nil, or_false, not_or] at plain
  rw [parseFrom] <;> simp [plain]

theorem parseFrom_second {script : String} (plain : word ∉ reserved) :
    parseFrom (some script) settings (word :: rest) = .error (.unexpected word) := by
  simp only [reserved, List.mem_cons, List.not_mem_nil, or_false, not_or] at plain
  rw [parseFrom] <;> simp [plain]

/-- Items are read one after the other, if there is at most one script with the one before. -/
theorem parseFrom_words {items : List Item} {named' : Option String}
    (h : named.toList ++ items.filterMap Item.script? = named'.toList) :
    parseFrom named settings (items.flatMap Item.words ++ rest) =
      parseFrom named' (settings.toList ++ items.filterMap Item.settings?).getLast? rest := by
  induction items generalizing named settings with
  | nil =>
    obtain rfl : named = named' := by
      cases named <;> cases named' <;> simp_all
    cases settings <;> rfl
  | cons item items ih =>
    rw [List.flatMap_cons, List.append_assoc]
    cases item with
    | script path plain =>
      cases named with
      | none => exact (parseFrom_script plain).trans (ih h)
      | some script =>
        -- there is no room for a second script
        cases named' <;> simp [Item.script?] at h
    | settings path =>
      have hlast : (settings.toList ++ path :: items.filterMap Item.settings?).getLast? =
          (path :: items.filterMap Item.settings?).getLast? := by
        rw [List.getLast?_append, List.getLast?_cons]
        rfl
      exact (ih h).trans (congrArg (parseFrom named' · rest) hlast.symm)

/-- An offence ends the reading with its text. -/
theorem Offence.exists_error {text : String} (h : Offence named rest text) :
    ∃ e, parseFrom named settings rest = .error e ∧ e.message = text := by
  cases h with
  | help h =>
    obtain rfl | rfl := h
    · exact ⟨.help, rfl, rfl⟩
    · exact ⟨.help, rfl, rfl⟩
  | noScript => exact ⟨.noScript, rfl, rfl⟩
  | noPath => exact ⟨.noSettingsPath, rfl, rfl⟩
  | second plain => exact ⟨.unexpected _, parseFrom_second plain, rfl⟩

/-- Words spell items until they are over or offend. -/
theorem exists_items (named settings : Option String) (words : List String) :
    ∃ (items : List Item) (named' : Option String) (rest : List String),
      words = items.flatMap Item.words ++ rest ∧
      named.toList ++ items.filterMap Item.script? = named'.toList ∧
      ((∃ script, named' = some script ∧ rest = []) ∨ ∃ text, Offence named' rest text) := by
  fun_induction parseFrom named settings words with
  | case1 settings script => exact ⟨[], some script, [], rfl, rfl, .inl ⟨script, rfl, rfl⟩⟩
  | case2 settings => exact ⟨[], none, [], rfl, rfl, .inr ⟨_, .noScript⟩⟩
  | case3 named settings path rest ih =>
    obtain ⟨items, named', rest', hwords, hnamed, hend⟩ := ih
    exact ⟨.settings path :: items, named', rest', by rw [hwords]; rfl, hnamed, hend⟩
  | case4 named settings => exact ⟨[], named, _, rfl, by simp, .inr ⟨_, .noPath⟩⟩
  | case5 named settings rest => exact ⟨[], named, _, rfl, by simp, .inr ⟨_, .help (.inl rfl)⟩⟩
  | case6 named settings rest => exact ⟨[], named, _, rfl, by simp, .inr ⟨_, .help (.inr rfl)⟩⟩
  | case7 settings word rest hsettings hshort hlong ih =>
    have plain : word ∉ reserved := by simp_all [reserved]
    obtain ⟨items, named', rest', hwords, hnamed, hend⟩ := ih
    exact ⟨.script word plain :: items, named', rest', by rw [hwords]; rfl, hnamed, hend⟩
  | case8 settings word rest hsettings hshort hlong script =>
    have plain : word ∉ reserved := by simp_all [reserved]
    exact ⟨[], some script, _, rfl, rfl, .inr ⟨_, .second plain⟩⟩

end

section

variable {words : List String}

/-- A command line can be used, or stops at some position. -/
theorem written_or_offends (words : List String) :
    (∃ a, Written words a) ∨ ∃ text, Offends words text := by
  obtain ⟨items, named, rest, hwords, hnamed, ⟨script, rfl, rfl⟩ | ⟨text, h⟩⟩ :=
    exists_items none none words
  · rw [List.append_nil] at hwords
    exact .inl ⟨⟨script, _⟩, items, hwords, hnamed, rfl⟩
  · exact .inr ⟨text, items, named, rest, hwords, hnamed, h⟩

theorem Written.parse_eq {a : Arguments} (h : Written words a) : parse words = .ok a := by
  obtain ⟨items, rfl, hscript, hsettings⟩ := h
  have hread : parse (items.flatMap Item.words ++ []) = parseFrom (some a.script)
      (Option.toList none ++ items.filterMap Item.settings?).getLast? [] :=
    parseFrom_words hscript
  rw [← List.append_nil (items.flatMap Item.words), hread]
  exact congrArg (fun settings => Except.ok (Arguments.mk a.script settings)) hsettings

theorem Offends.exists_error {text : String} (h : Offends words text) :
    ∃ e, parse words = .error e ∧ e.message = text := by
  obtain ⟨items, named, rest, rfl, hscripts, hstop⟩ := h
  have hread : parse (items.flatMap Item.words ++ rest) =
      parseFrom named (Option.toList none ++ items.filterMap Item.settings?).getLast? rest :=
    parseFrom_words hscripts
  rw [hread]
  exact hstop.exists_error

/-- A command line is accepted exactly if it spells one script and any number of settings, in any
order, and then names that script and the last of the settings. It spells them in one way. It is
refused exactly if it offends at some position, with the text for what stands there. -/
theorem parse_exact (words : List String) :
    (∀ a, parse words = .ok a ↔ Written words a) ∧
    (∀ text, (∃ e, parse words = .error e ∧ e.message = text) ↔ Offends words text) ∧
    ∀ items items' : List Item, words = items.flatMap Item.words →
      words = items'.flatMap Item.words → items = items' := by
  refine ⟨fun a => ⟨fun h => ?_, Written.parse_eq⟩, fun text => ⟨?_, Offends.exists_error⟩,
    fun items items' h h' => Item.flatMap_words_injective (h.symm.trans h')⟩
  · obtain ⟨a', hwritten⟩ | ⟨text, hoffends⟩ := written_or_offends words
    · obtain rfl := Except.ok.inj (h.symm.trans hwritten.parse_eq)
      exact hwritten
    · obtain ⟨e, he, -⟩ := hoffends.exists_error
      cases h.symm.trans he
  · rintro ⟨e, h, rfl⟩
    obtain ⟨a, hwritten⟩ | ⟨text, hoffends⟩ := written_or_offends words
    · cases h.symm.trans hwritten.parse_eq
    · obtain ⟨e', he, rfl⟩ := hoffends.exists_error
      obtain rfl := Except.error.inj (h.symm.trans he)
      exact hoffends

/-- A path of settings may be any word. -/
example : parse ["--settings", "--help", "graph.ron", "--settings", "--settings"] =
    .ok ⟨"graph.ron", some "--settings"⟩ := by decide

end

end Arguments

end CommandLine
end TextureFlow
