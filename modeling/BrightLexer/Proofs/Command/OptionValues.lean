import BrightLexer.Command.Arguments
import Mathlib.Data.List.Basic

/-!
# The options of a command line

Whatever command line is read, an option that was given may stand on the side where it stands, and can
have the value that it was given (`Given.Accepted`). An option is added in one place only
(`Given.add?`), which looks at its value; that it may stand there was looked at before, when it was
recognised by its letter or its name. `accepted_readSides` is that this holds of both sides of every
command line: no reader adds an option in another way.
-/

namespace BrightLexer.Command

/-- What is awaited of a result that may be missing. -/
theorem orUsage_eq_ok_iff {α : Type} {x : Option α} {a : α} : orUsage x = .ok a ↔ x = some a := by
  cases x with
  | none => exact iff_of_false nofun nofun
  | some b =>
    exact ⟨fun h => congrArg some (Except.ok.inj h), fun h => congrArg Except.ok (Option.some.inj h)⟩

/-- Two steps succeed if the first does, and the second does with its result. -/
theorem bind_eq_ok_iff {α β ε : Type} {x : Except ε α} {f : α → Except ε β} {b : β} :
    x >>= f = .ok b ↔ ∃ a, x = .ok a ∧ f a = .ok b := by
  cases x with
  | error e => exact iff_of_false nofun nofun
  | ok a => exact ⟨fun h => ⟨a, rfl, h⟩, fun ⟨_, ha, h⟩ => Except.ok.inj ha ▸ h⟩

/-- A result that is there is the result of a success. -/
theorem eq_ok_of_toOption {α ε : Type} {x : Except ε α} {a : α} (h : x.toOption = some a) : x = .ok a := by
  cases x with
  | error e => cases h
  | ok b => exact congrArg Except.ok (Option.some.inj h)

/-- The options of a side may stand there, and have values that they can have. -/
def Given.Accepted (task : Option TaskName) (g : Given) : Prop :=
  ∀ p ∈ g.options, p.1.allowed task = true ∧ p.1.accepts p.2 = true

/-- An option that still lacks its value may stand on its side. -/
def Awaits (task : Option TaskName) (pending : Option OptionName) : Prop :=
  ∀ o ∈ pending, o.allowed task = true

section
variable {task : Option TaskName} {g g' : Given} {pending : Option OptionName} {o : OptionName}
  {value : String}

/-- Before anything is read, no option is given. -/
theorem accepted_empty (task : Option TaskName) : Given.empty.Accepted task :=
  List.forall_mem_nil _

/-- No option lacks its value. -/
theorem awaits_none (task : Option TaskName) : Awaits task none := nofun

namespace Given.Accepted

/-- An option that is added may stand there and can have its value. -/
theorem add? (h : g.Accepted task) (ho : o.allowed task = true) (hadd : g.add? o value = some g') :
    g'.Accepted task := by
  unfold Given.add? at hadd
  split at hadd
  · cases hadd
  · next hnot =>
    cases hadd
    have haccepts : o.accepts value = true := by
      rw [Bool.or_eq_true, not_or, Bool.not_eq_true'] at hnot
      exact Bool.not_eq_false _ ▸ hnot.2
    exact List.forall_mem_append.2 ⟨h, List.forall_mem_singleton.2 ⟨ho, haccepts⟩⟩

/-- An operand changes no options. -/
theorem addOperand? {name : TaskName} {operand : String} (h : g.Accepted task)
    (hadd : g.addOperand? name operand = some g') : g'.Accepted task := by
  unfold Given.addOperand? at hadd
  split at hadd
  · cases hadd
  · cases hadd
    exact h

/-- Operands change no options. -/
theorem addOperands? {name : TaskName} {operands : List String} (h : g.Accepted task)
    (hadd : operands.foldlM (Given.addOperand? name) g = some g') : g'.Accepted task := by
  induction operands generalizing g with
  | nil =>
    cases hadd
    exact h
  | cons operand operands ih =>
    rw [List.foldlM_cons, Option.bind_eq_bind, Option.bind_eq_some_iff] at hadd
    obtain ⟨m, hm, hadd⟩ := hadd
    exact ih (h.addOperand? hm) hadd

/-- An option that was given may stand on its side and can have its value. -/
theorem of_value? (h : g.Accepted task) (hvalue : g.value? o = some value) :
    o.allowed task = true ∧ o.accepts value = true := by
  obtain ⟨front, back, hoptions, -⟩ := List.lookup_eq_some_iff.1 hvalue
  exact h (o, value) (hoptions ▸ List.mem_append_right _ (List.mem_cons_self ..))

end Given.Accepted

/-! ## The readers -/

/-- Reading letters of options keeps what is given accepted. -/
theorem accepted_readLetters {cs : List Char} (h : g.Accepted task)
    (hread : readLetters task cs g = .ok (g', pending)) :
    g'.Accepted task ∧ Awaits task pending := by
  induction cs generalizing g with
  | nil =>
    cases hread
    exact ⟨h, awaits_none task⟩
  | cons c cs ih =>
    rw [readLetters, bind_eq_ok_iff] at hread
    obtain ⟨o, ho, hread⟩ := hread
    have hallowed : o.allowed task = true :=
      (Option.filter_eq_some_iff.1 (orUsage_eq_ok_iff.1 ho)).2
    have added {value : String} {m : Given} (hm : orUsage (g.add? o value) = .ok m) :
        m.Accepted task := h.add? hallowed (orUsage_eq_ok_iff.1 hm)
    split at hread
    · cases hread
    split at hread
    · split at hread
      · cases hread
        exact ⟨h, fun _ hmem => Option.mem_some_iff.1 hmem ▸ hallowed⟩
      all_goals
        obtain ⟨m, hm, hread⟩ := bind_eq_ok_iff.1 hread
        cases hread
        exact ⟨added hm, awaits_none task⟩
    · obtain ⟨m, hm, hread⟩ := bind_eq_ok_iff.1 hread
      exact ih (added hm) hread

/-- Reading a long option keeps what is given accepted. -/
theorem accepted_readLongOption {cs : List Char} (h : g.Accepted task)
    (hread : readLongOption task cs g = .ok (g', pending)) :
    g'.Accepted task ∧ Awaits task pending := by
  rw [readLongOption, bind_eq_ok_iff] at hread
  obtain ⟨o, ho, hread⟩ := hread
  have hallowed : o.allowed task = true :=
    (Option.filter_eq_some_iff.1 (orUsage_eq_ok_iff.1 ho)).2
  have added {value : String} (hread : orUsage (g.add? o value) >>= (fun m => pure (m, none)) =
      .ok (g', pending)) : g'.Accepted task ∧ Awaits task pending := by
    obtain ⟨m, hm, hread⟩ := bind_eq_ok_iff.1 hread
    cases hread
    exact ⟨h.add? hallowed (orUsage_eq_ok_iff.1 hm), awaits_none task⟩
  split at hread
  · split at hread
    · cases hread
    split at hread
    · cases hread
      exact ⟨h, fun _ hmem => Option.mem_some_iff.1 hmem ▸ hallowed⟩
    · exact added hread
  · split at hread
    · exact added hread
    · cases hread

/-- Reading an argument with options keeps what is given accepted. -/
theorem accepted_readOptions {argument : Argument} (h : g.Accepted task)
    (hread : readOptions task argument g = .ok (g', pending)) :
    g'.Accepted task ∧ Awaits task pending := by
  cases argument with
  | long cs => exact accepted_readLongOption h hread
  | short cs => exact accepted_readLetters h hread
  | endOfOptions | operand =>
    cases hread
    exact ⟨h, awaits_none task⟩

/-- Behind the name of a task, what is given stays accepted. -/
theorem accepted_readTaskSide {name : TaskName} (arguments : List String) {g : Given}
    (h : g.Accepted (some name)) (hread : readTaskSide name arguments g = .ok g') :
    g'.Accepted (some name) := by
  match arguments with
  | [] =>
    cases hread
    exact h
  | argument :: arguments =>
    rw [readTaskSide] at hread
    split at hread
    · exact h.addOperands? (orUsage_eq_ok_iff.1 hread)
    · obtain ⟨m, hm, hread⟩ := bind_eq_ok_iff.1 hread
      exact accepted_readTaskSide arguments (h.addOperand? (orUsage_eq_ok_iff.1 hm)) hread
    · obtain ⟨⟨m, pending⟩, hoptions, hread⟩ := bind_eq_ok_iff.1 hread
      obtain ⟨hm, hawaits⟩ := accepted_readOptions h hoptions
      cases pending with
      | none => exact accepted_readTaskSide arguments hm hread
      | some o =>
        cases arguments with
        | nil => cases hread
        | cons value arguments =>
          dsimp only at hread
          split at hread
          · obtain ⟨n, hn, hread⟩ := bind_eq_ok_iff.1 hread
            exact accepted_readTaskSide arguments
              (hm.add? (hawaits o rfl) (orUsage_eq_ok_iff.1 hn)) hread
          · cases hread

/-- With something accepted before, both sides are accepted. -/
theorem accepted_readSides_of {sides : Sides} (arguments : List String) {g : Given}
    (h : g.Accepted none) (hread : readSides arguments g = .ok sides) :
    sides.program.Accepted none ∧ sides.own.Accepted (some sides.task) := by
  match arguments with
  | [] => cases hread
  | argument :: arguments =>
    rw [readSides] at hread
    split at hread
    · cases hread
    · obtain ⟨name, -, hread⟩ := bind_eq_ok_iff.1 hread
      obtain ⟨own, hown, hread⟩ := bind_eq_ok_iff.1 hread
      cases hread
      exact ⟨h, accepted_readTaskSide arguments (accepted_empty _) hown⟩
    · obtain ⟨⟨m, pending⟩, hoptions, hread⟩ := bind_eq_ok_iff.1 hread
      obtain ⟨hm, hawaits⟩ := accepted_readOptions h hoptions
      cases pending with
      | none => exact accepted_readSides_of arguments hm hread
      | some o =>
        cases arguments with
        | nil => cases hread
        | cons value arguments =>
          dsimp only at hread
          split at hread
          · cases hread
          split at hread
          · next n hn => exact accepted_readSides_of arguments (hm.add? (hawaits o rfl) hn) hread
          -- A value that is not accepted makes no command line, whatever follows it.
          · cases arguments with
            | nil => cases hread
            | cons name arguments =>
              obtain ⟨name, -, hread⟩ := bind_eq_ok_iff.1 hread
              obtain ⟨own, -, hread⟩ := bind_eq_ok_iff.1 hread
              cases hread

/-- On both sides of a command line, the options may stand there and have values that they can have. -/
theorem accepted_readSides {sides : Sides} {arguments : List String}
    (h : readSides arguments .empty = .ok sides) :
    sides.program.Accepted none ∧ sides.own.Accepted (some sides.task) :=
  accepted_readSides_of arguments (accepted_empty none) h

end

end BrightLexer.Command
