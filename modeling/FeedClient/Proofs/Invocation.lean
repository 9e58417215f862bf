import FeedClient.Invocation.Reader
import FeedClient.Proofs.NavBar.Activation

/-!
# What the command line says

An option is named in full or by its letter, and its value is attached to it or is the next word.
The words before the command give values to options, and an invocation that is read has just these
values, each of an option that is named once. That a value is looked at late decides only which of
two faults is reported: a command line that is accepted says the same without it.
-/

namespace FeedClient

namespace Word

/-! ### The ways to name an option -/

/-- The first equals sign ends the name of an option. -/
theorem cutAtEquals_append {name : List Char} (hname : '=' ∉ name) (value : List Char) :
  cutAtEquals (name ++ '=' :: value) = (name, some value)
  := by
  have hall : ∀ c ∈ name, decide (c ≠ '=') = true := by
    intro c hc
    apply decide_eq_true
    rintro rfl
    apply hname hc
  rw [cutAtEquals, List.dropWhile_append_of_pos hall, List.takeWhile_append_of_pos hall]
  simp

theorem notMem_name (setting : Setting) :
  '=' ∉ setting.name.toList
  := by
  cases setting <;> decide

theorem find?_name (setting : Setting) :
  Setting.all.find? (fun x => x.name.toList == setting.name.toList) = some setting
  := by
  cases setting <;> decide

/-- An option that is named in full, with its value in the next word. -/
theorem read_long (setting : Setting) :
  read ("--" ++ setting.name) = .setting setting none
  := by
  cases setting <;> decide

/-- An option that is named in full, with its value after an equals sign. -/
theorem read_long_attached (setting : Setting) (value : String) :
  read ("--" ++ setting.name ++ "=" ++ value) = .setting setting (some value)
  := by
  have hletters : ("--" ++ setting.name ++ "=" ++ value).toList
      = '-' :: '-' :: (setting.name.toList ++ '=' :: value.toList) := by
    simp
  have hlong : read ("--" ++ setting.name ++ "=" ++ value)
      = long (setting.name.toList ++ '=' :: value.toList) := by
    rw [read, hletters]
    cases setting <;> rfl
  rw [hlong, long, cutAtEquals_append (notMem_name setting)]
  simp only [find?_name, Option.map_some, String.ofList_toList]

/-- An option that is named by its letter, with its value in the same word or in the next one. -/
theorem read_short {setting : Setting} {letter : Char} (h : setting.letter? = some letter)
    (rest : List Char) :
  read (String.ofList ('-' :: letter :: rest)) = .setting setting (attachedTo rest)
  := by
  cases setting <;> cases h <;> simp [read, short, Setting.all, Setting.letter?]

end Word

namespace Setting

/-! ### Values of options -/

/-- What an option can be. -/
@[reducible] def Value : Setting → Type
  | server | user => String
  | view => View
  | timeout => UInt64
  | logLevel => LogLevel

/-- A text is one of a value. -/
def Spells (text : String) : (setting : Setting) → setting.Value → Prop
  | server, value => value = text
  | user, value => value = text
  | view, value => View.Names text value
  | timeout, value => unsigned? text.toList = some value
  | logLevel, value => value.name = text

/-- A level is found by its name. -/
theorem find?_level_eq_some_iff {text : String} {level : LogLevel} :
  LogLevel.all.find? (fun other => other.name == text) = some level ↔ level.name = text
  := by
  constructor
  · intro h
    simpa using List.find?_some h
  · rintro rfl
    cases level <;> decide

end Setting

namespace Invocation

variable {i j k : Invocation} {setting : Setting} {text : String}

/-- What an option is, if it has been given. -/
def value? (i : Invocation) : (setting : Setting) → Option setting.Value
  | .server => i.server
  | .user => i.user
  | .view => i.view
  | .timeout => i.timeout
  | .logLevel => i.logLevel

def put (i : Invocation) : (setting : Setting) → setting.Value → Invocation
  | .server, value => { i with server := some value }
  | .user, value => { i with user := some value }
  | .view, value => { i with view := some value }
  | .timeout, value => { i with timeout := some value }
  | .logLevel, value => { i with logLevel := some value }

theorem has_eq (i : Invocation) (setting : Setting) :
  i.has setting = (i.value? setting).isSome
  := by
  cases setting <;> rfl

theorem has_eq_false_iff :
  i.has setting = false ↔ i.value? setting = none
  := by
  rw [has_eq, Option.isSome_eq_false_iff, Option.isNone_iff_eq_none]

theorem value?_put (i : Invocation) (setting : Setting) (value : setting.Value) :
  (i.put setting value).value? setting = some value
  := by
  cases setting <;> rfl

theorem value?_put_of_ne (i : Invocation) {other : Setting} (value : setting.Value)
    (hother : other ≠ setting) :
  (i.put setting value).value? other = i.value? other
  := by
  cases setting <;> cases other <;> first | rfl | exact absurd rfl hother

theorem command_put (i : Invocation) (setting : Setting) (value : setting.Value) :
  (i.put setting value).command = i.command
  := by
  cases setting <;> rfl

/-- Invocations are their options and their command. -/
theorem eq_of_value? (h : ∀ setting, i.value? setting = j.value? setting)
    (hcommand : i.command = j.command) :
  i = j
  := by
  obtain ⟨_, _, _, _, _, _⟩ := i
  obtain ⟨_, _, _, _, _, _⟩ := j
  obtain rfl := h .server
  obtain rfl := h .user
  obtain rfl := h .view
  obtain rfl := h .timeout
  obtain rfl := h .logLevel
  obtain rfl := hcommand
  rfl

/-- An option takes a value once, and takes the one that its text spells. -/
theorem set_eq_ok_iff :
  i.set setting text = .ok j
    ↔ i.value? setting = none ∧ ∃ value, Setting.Spells text setting value ∧ i.put setting value = j
  := by
  rw [set.eq_def, ← has_eq_false_iff]
  cases hhas : i.has setting with
  | true => simp
  | false =>
      cases setting with
      | server => simp [Setting.Spells, put]
      | user => simp [Setting.Spells, put]
      | view =>
          simp only [Setting.Spells, put, ← View.ofLabel?_eq_some_iff]
          cases View.ofLabel? text <;> simp
      | timeout =>
          simp only [Setting.Spells, put]
          cases unsigned? text.toList <;> simp
      | logLevel =>
          simp only [Setting.Spells, put, ← Setting.find?_level_eq_some_iff]
          cases LogLevel.all.find? fun level => level.name == text <;> simp

theorem command_of_set (h : i.set setting text = .ok j) :
  j.command = i.command
  := by
  obtain ⟨-, value, -, rfl⟩ := set_eq_ok_iff.mp h
  apply command_put

/-! ### Values of several options -/

/-- One invocation has, beyond another, exactly the values that are given. -/
structure Gains (i : Invocation) (given : List (Setting × String)) (j : Invocation) : Prop where
  once : (given.map Prod.fst).Nodup
  first : ∀ setting ∈ given.map Prod.fst, i.value? setting = none
  spelled : ∀ setting text, (setting, text) ∈ given →
    ∃ value, Setting.Spells text setting value ∧ j.value? setting = some value
  others : ∀ setting ∉ given.map Prod.fst, i.value? setting = j.value? setting

variable {given : List (Setting × String)} {command : Option Command}

theorem gains_nil_iff :
  i.Gains [] j ↔ ∀ setting, i.value? setting = j.value? setting
  := by
  constructor
  · intro h setting
    apply h.others setting List.not_mem_nil
  · intro h
    refine ⟨List.nodup_nil, ?_, ?_, fun setting _ => h setting⟩ <;> simp

/-- Several values are given one after another. -/
theorem gains_cons_iff :
  i.Gains ((setting, text) :: given) k ↔ ∃ j, i.set setting text = .ok j ∧ j.Gains given k
  := by
  simp only [set_eq_ok_iff]
  constructor
  · intro h
    obtain ⟨hnot, honce⟩ := List.nodup_cons.mp h.once
    obtain ⟨value, hvalue, hk⟩ := h.spelled setting text List.mem_cons_self
    refine ⟨i.put setting value, ⟨h.first setting List.mem_cons_self, value, hvalue, rfl⟩, honce,
      ?_, ?_, ?_⟩
    · intro other hother
      rw [value?_put_of_ne i value (ne_of_mem_of_not_mem hother hnot)]
      apply h.first other (List.mem_cons_of_mem _ hother)
    · intro other text hother
      apply h.spelled other text (List.mem_cons_of_mem _ hother)
    · intro other hother
      by_cases hsame : other = setting
      · subst hsame
        rw [value?_put, hk]
      · rw [value?_put_of_ne i value hsame]
        apply h.others other (List.not_mem_cons_of_ne_of_not_mem hsame hother)
  · rintro ⟨_, ⟨hnone, value, hvalue, rfl⟩, h⟩
    have hnot : setting ∉ given.map Prod.fst := by
      intro hmem
      have hput := h.first setting hmem
      rw [value?_put] at hput
      cases hput
    constructor
    · apply List.nodup_cons.mpr ⟨hnot, h.once⟩
    · intro other hother
      obtain rfl | hother := List.mem_cons.mp hother
      · apply hnone
      · rw [← value?_put_of_ne i value (ne_of_mem_of_not_mem hother hnot)]
        apply h.first other hother
    · intro other text' hother
      obtain heq | hother := List.mem_cons.mp hother
      · obtain ⟨rfl, rfl⟩ := Prod.mk.inj heq
        use value, hvalue
        rw [← h.others other hnot, value?_put]
      · apply h.spelled other text' hother
    · intro other hother
      obtain ⟨hne, hother⟩ := List.ne_and_not_mem_of_not_mem_cons hother
      rw [← h.others other hother, value?_put_of_ne i value hne]

/-! ### Command lines -/

/-- Words that give values to options, and name a command after them or none. -/
inductive Says : List String → List (Setting × String) → Option Command → Prop
  | nothing : Says [] [] none
  | separator {arg : String} (hword : Word.read arg = .separator) : Says [arg] [] none
  | attached {arg : String} {rest : List String} {setting : Setting} {text : String}
      {given : List (Setting × String)} {command : Option Command}
      (hword : Word.read arg = .setting setting (some text)) (hrest : Says rest given command) :
    Says (arg :: rest) ((setting, text) :: given) command
  | apart {arg value : String} {rest : List String} {setting : Setting} {text : String}
      {given : List (Setting × String)} {command : Option Command}
      (hword : Word.read arg = .setting setting none) (hvalue : Word.read value = .plain text)
      (hrest : Says rest given command) :
    Says (arg :: value :: rest) ((setting, text) :: given) command
  | command {arg name : String} {rest : List String} {form : Form} {command : Command}
      (hword : Word.read arg = .plain name) (hform : form? name = some form)
      (hrest : readCommand form false rest = .ok command) :
    Says (arg :: rest) [] (some command)

theorem bind_eq_ok_iff {α β : Type} {x : Except Refusal α} {f : α → Except Refusal β} {b : β} :
  x >>= f = .ok b ↔ ∃ a, x = .ok a ∧ f a = .ok b
  := by
  cases x <;> simp [bind, Except.bind]

/-- A word that is no value names the command, and the option before it is settled after it. -/
theorem readWords_command_eq_ok_iff {arg name : String} {rest : List String}
    {pending : Option Pending} (hword : Word.read arg = .plain name)
    (hpending : ∀ setting, pending ≠ some ⟨setting, none⟩) :
  i.readWords pending (arg :: rest) = .ok k ↔ ∃ form, form? name = some form
    ∧ ∃ command, readCommand form false rest = .ok command
    ∧ ∃ j, i.settle pending = .ok j ∧ { j with command := some command } = k
  := by
  have hhelp : form? "help" = none := rfl
  rw [readWords.eq_def]
  simp only [hword, beq_iff_eq]
  split
  · next hname =>
      rw [hname, hhelp]
      simp
  · cases form? name <;> simp [bind_eq_ok_iff]

/-- A value that is looked at late might as well be looked at before. -/
theorem readWords_late_eq_ok_iff {args : List String} :
  i.readWords (some ⟨setting, some text⟩) args = .ok k
    ↔ ∃ j, i.set setting text = .ok j ∧ j.readWords none args = .ok k
  := by
  cases args with
  | nil => simp [readWords, settle]
  | cons arg rest =>
      cases hword : Word.read arg with
      | setting other attached =>
          cases attached <;> simp [readWords, hword, settle, bind_eq_ok_iff]
      | inquiry => simp [readWords, hword, settle, bind_eq_ok_iff]
      | surplus => simp [readWords, hword]
      | stranger => simp [readWords, hword]
      | separator => cases rest <;> simp [readWords, hword, settle]
      | plain name =>
          rw [readWords_command_eq_ok_iff hword (by simp)]
          constructor
          · rintro ⟨form, hform, command, hrest, j, hset, hk⟩
            use j, hset
            rw [readWords_command_eq_ok_iff hword (by simp)]
            use form, hform, command, hrest, j, rfl
          · rintro ⟨j, hset, hk⟩
            rw [readWords_command_eq_ok_iff hword (by simp)] at hk
            obtain ⟨form, hform, command, hrest, _, hj, hk⟩ := hk
            obtain rfl := Except.ok.inj hj
            use form, hform, command, hrest, j, hset

theorem readWords_attached_eq_ok_iff {arg : String} {rest : List String}
    (hword : Word.read arg = .setting setting (some text)) :
  i.readWords none (arg :: rest) = .ok k
    ↔ ∃ j, i.set setting text = .ok j ∧ j.readWords none rest = .ok k
  := by
  simp [readWords, hword, settle, bind_eq_ok_iff]

/-- An option whose value is not attached has it in the next word. -/
theorem readWords_apart_eq_ok_iff {arg : String} {rest : List String}
    (hword : Word.read arg = .setting setting none) :
  i.readWords none (arg :: rest) = .ok k
    ↔ ∃ value after text, rest = value :: after ∧ Word.read value = .plain text
      ∧ ∃ j, i.set setting text = .ok j ∧ j.readWords none after = .ok k
  := by
  have hpending : i.readWords none (arg :: rest) = i.readWords (some ⟨setting, none⟩) rest := by
    simp [readWords, hword, settle, bind, Except.bind]
  rw [hpending]
  cases rest with
  | nil => simp [readWords, settle]
  | cons next after =>
      cases hnext : Word.read next with
      | setting => simp [readWords, settle, bind_eq_ok_iff, hnext]
      | inquiry => simp [readWords, settle, bind_eq_ok_iff, hnext]
      | surplus => simp [readWords, hnext]
      | stranger => simp [readWords, hnext]
      | separator => cases after <;> simp [readWords, settle, hnext]
      | plain text =>
          have hlate : i.readWords (some ⟨setting, none⟩) (next :: after)
              = i.readWords (some ⟨setting, some text⟩) after := by
            simp [readWords, hnext]
          rw [hlate, readWords_late_eq_ok_iff]
          simp [hnext]

theorem value?_with_command (i : Invocation) (command : Option Command) (setting : Setting) :
  { i with command }.value? setting = i.value? setting
  := by
  cases setting <;> rfl

/-- What is read has the values that the words give, and the command that they name. -/
theorem exists_says {args : List String} (h : i.readWords none args = .ok k)
    (hnone : i.command = none) :
  ∃ given, Says args given k.command ∧ i.Gains given k
  := by
  -- an option takes one word or two, so the rest of the words is not always the tail
  induction hlength : args.length using Nat.strong_induction_on generalizing i args with
  | _ n ih =>
      subst hlength
      cases args with
      | nil =>
          obtain rfl := Except.ok.inj h
          rw [hnone]
          exact ⟨[], .nothing, gains_nil_iff.mpr fun _ => rfl⟩
      | cons arg rest =>
          cases hword : Word.read arg with
          | setting setting attached =>
              cases attached with
              | none =>
                  obtain ⟨value, after, text, rfl, hvalue, j, hset, hj⟩ :=
                    (readWords_apart_eq_ok_iff hword).mp h
                  have hjnone : j.command = none := by rw [command_of_set hset, hnone]
                  have hshorter : after.length < (arg :: value :: after).length := by
                    rw [List.length_cons, List.length_cons]
                    omega
                  obtain ⟨given, hsays, hgains⟩ := ih after.length hshorter hj hjnone rfl
                  exact ⟨(setting, text) :: given, .apart hword hvalue hsays,
                    gains_cons_iff.mpr ⟨j, hset, hgains⟩⟩
              | some text =>
                  obtain ⟨j, hset, hj⟩ := (readWords_attached_eq_ok_iff hword).mp h
                  have hjnone : j.command = none := by rw [command_of_set hset, hnone]
                  obtain ⟨given, hsays, hgains⟩ := ih rest.length (by simp) hj hjnone rfl
                  exact ⟨(setting, text) :: given, .attached hword hsays,
                    gains_cons_iff.mpr ⟨j, hset, hgains⟩⟩
          | inquiry => simp [readWords, hword, settle, bind_eq_ok_iff] at h
          | surplus => simp [readWords, hword] at h
          | stranger => simp [readWords, hword] at h
          | separator =>
              cases rest with
              | nil =>
                  obtain rfl : i = k := by simpa [readWords, hword, settle] using h
                  rw [hnone]
                  exact ⟨[], .separator hword, gains_nil_iff.mpr fun _ => rfl⟩
              | cons => simp [readWords, hword] at h
          | plain name =>
              obtain ⟨form, hform, command, hrest, _, hj, rfl⟩ :=
                (readWords_command_eq_ok_iff hword (by simp)).mp h
              obtain rfl := Except.ok.inj hj
              refine ⟨[], .command hword hform hrest, gains_nil_iff.mpr fun setting => ?_⟩
              apply (value?_with_command i (some command) setting).symm

/-- Words that give an option at most one value each, one that it can have, are read. -/
theorem readWords_eq_ok {args : List String} (h : Says args given command)
    (hgains : i.Gains given k) (hnone : i.command = none) (hcommand : k.command = command) :
  i.readWords none args = .ok k
  := by
  induction h generalizing i with
  | nothing =>
      obtain rfl := eq_of_value? (gains_nil_iff.mp hgains) (hnone.trans hcommand.symm)
      rfl
  | separator hword =>
      obtain rfl := eq_of_value? (gains_nil_iff.mp hgains) (hnone.trans hcommand.symm)
      simp [readWords, hword, settle]
  | attached hword hrest ih =>
      obtain ⟨j, hset, hj⟩ := gains_cons_iff.mp hgains
      rw [readWords_attached_eq_ok_iff hword]
      use j, hset
      apply ih hj ((command_of_set hset).trans hnone) hcommand
  | apart hword hvalue hrest ih =>
      obtain ⟨j, hset, hj⟩ := gains_cons_iff.mp hgains
      rw [readWords_apart_eq_ok_iff hword]
      refine ⟨_, _, _, rfl, hvalue, j, hset, ?_⟩
      apply ih hj ((command_of_set hset).trans hnone) hcommand
  | command hword hform hrest =>
      rw [readWords_command_eq_ok_iff hword (by simp)]
      refine ⟨_, hform, _, hrest, i, rfl, ?_⟩
      apply eq_of_value? _ hcommand.symm
      intro setting
      rw [value?_with_command, gains_nil_iff.mp hgains]

/-- The command line is read exactly when it gives each option at most one value, which is one of
the option, and names at most one command. What is read has these values and this command. -/
theorem read_eq_ok_iff {args : List String} :
  read args = .ok i ↔ ∃ given, Says args given i.command ∧ Gains {} given i
  := by
  constructor
  · intro h
    apply exists_says h rfl
  · rintro ⟨given, hsays, hgains⟩
    apply readWords_eq_ok hsays hgains rfl rfl

example : read ["--user=ann", "-l", "warn", "post", "hi"]
    = .ok { user := "ann", logLevel := some .warn, command := some (.post "hi") } := by
  decide +kernel

end Invocation

end FeedClient
