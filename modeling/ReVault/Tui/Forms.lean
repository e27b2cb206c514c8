import ReVault.Serving.Unlocked

/-!
# Keys and forms

The forms of the terminal interface, each with what a key press does to it. A character
always goes to the field that has the focus, whatever it means where no form is open.
-/

namespace ReVault.Tui

/-- The keys that the interface tells apart. -/
inductive KeyCode where
  | esc
  | enter
  | tab
  | backTab
  | backspace
  | up
  | down
  | char (c : Char)
  | other
  deriving DecidableEq

/-- A text without its last character. -/
def popChar (s : String) : String := String.ofList s.toList.dropLast

/-- What a form asks of its owner. -/
inductive FormOutcome where
  | submit
  | cancel
  deriving DecidableEq

/-! ## Creating a vault -/

/-- The fields of the form for a new vault. -/
inductive Field where
  | name
  | description
  | capacity
  | password
  | confirm
  deriving DecidableEq

namespace Field

/-- The field below. -/
def next : Field → Field
  | name => description
  | description => capacity
  | capacity => password
  | password => confirm
  | confirm => name

/-- The field above. -/
def prev : Field → Field
  | name => confirm
  | description => name
  | capacity => description
  | password => capacity
  | confirm => password

end Field

/-- The form for a new vault. -/
structure CreateForm where
  name : String := ""
  description : String := ""
  capacity : String := "10 GB"
  password : String := ""
  confirm : String := ""
  focus : Field := .name
  error : Option FormError := none
  deriving DecidableEq

namespace CreateForm

/-- The text of a field. -/
def text (form : CreateForm) : Field → String
  | .name => form.name
  | .description => form.description
  | .capacity => form.capacity
  | .password => form.password
  | .confirm => form.confirm

/-- `field_mut`: a change of the field that has the focus. -/
def edit (change : String → String) (form : CreateForm) : CreateForm :=
  match form.focus with
  | .name => { form with name := change form.name }
  | .description => { form with description := change form.description }
  | .capacity => { form with capacity := change form.capacity }
  | .password => { form with password := change form.password }
  | .confirm => { form with confirm := change form.confirm }

/-- One key press. Only the last field is submitted by the key that leaves a field. -/
def handleKey (form : CreateForm) : KeyCode → CreateForm × Option FormOutcome
  | .esc => (form, some .cancel)
  | .tab | .down => ({ form with focus := form.focus.next }, none)
  | .backTab | .up => ({ form with focus := form.focus.prev }, none)
  | .enter =>
      if form.focus = .confirm then (form, some .submit)
      else ({ form with focus := form.focus.next }, none)
  | .backspace => (form.edit popChar, none)
  | .char c => (form.edit (·.push c), none)
  | .other => (form, none)

end CreateForm

/-! ## Unlocking a vault -/

/-- The form that asks for the password of a vault. -/
structure UnlockForm where
  password : String := ""
  error : Option FormError := none
  deriving DecidableEq

/-- A key press in the form for a password. -/
def UnlockForm.handleKey (form : UnlockForm) : KeyCode → UnlockForm × Option FormOutcome
  | .esc => (form, some .cancel)
  | .enter => (form, some .submit)
  | .backspace => ({ form with password := popChar form.password }, none)
  | .char c => ({ form with password := form.password.push c }, none)
  | _ => (form, none)

/-! ## Adding and updating files -/

/-- The form for importing a file. -/
structure AddFileForm where
  sourcePath : String := ""
  destName : String := ""
  focusDest : Bool := false
  error : Option FormError := none
  deriving DecidableEq

namespace AddFileForm

/-- A change of the field that has the focus. -/
def edit (change : String → String) (form : AddFileForm) : AddFileForm :=
  if form.focusDest then { form with destName := change form.destName }
  else { form with sourcePath := change form.sourcePath }

/-- One key press. -/
def handleKey (form : AddFileForm) : KeyCode → AddFileForm × Option FormOutcome
  | .esc => (form, some .cancel)
  | .tab | .down | .up => ({ form with focusDest := !form.focusDest }, none)
  | .enter =>
      if form.focusDest then (form, some .submit) else ({ form with focusDest := true }, none)
  | .backspace => (form.edit popChar, none)
  | .char c => (form.edit (·.push c), none)
  | _ => (form, none)

end AddFileForm

/-- The new contents of the selected file. -/
structure UpdateFileForm where
  sourcePath : String := ""
  error : Option FormError := none
  deriving DecidableEq

/-- A key press in the form for a new content. -/
def UpdateFileForm.handleKey (form : UpdateFileForm) :
    KeyCode → UpdateFileForm × Option FormOutcome
  | .esc => (form, some .cancel)
  | .enter => (form, some .submit)
  | .backspace => ({ form with sourcePath := popChar form.sourcePath }, none)
  | .char c => ({ form with sourcePath := form.sourcePath.push c }, none)
  | _ => (form, none)

/-! ## A line of text -/

/-- What a key press asks of a one-line input with an error below it. -/
inductive InputOutcome where
  | cancel
  | submit
  | text (input : String)
  deriving DecidableEq

/-- The one-line inputs of the network tab, which differ in the characters they take. -/
def inputKey (takes : Char → Bool) (input : String) : KeyCode → InputOutcome
  | .esc => .cancel
  | .enter => .submit
  | .backspace => .text (popChar input)
  | .char c => if takes c then .text (input.push c) else .text input
  | _ => .text input

end ReVault.Tui
