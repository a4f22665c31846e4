/-
Settings as a file.

The file has two tables, one for the session and one for the bandwidth.  What it does not
mention has its default, and what it mentions beyond the settings is passed over.  A
section is given by the names of its settings or, as an array, by their places.
-/
import PathWire.Session.Config
import PathWire.Text.Utf8
import PathWire.Toml.Document

namespace PathWire

/-! ### Reading -/

/-- What a section gives for a setting, by the setting's place or name.  A date has
neither, but counts as a section all the same. -/
def sectionSettings? : Toml.Value → Option (Nat → String → Option Toml.Value)
  | .table _ entries => some fun _ name => entries.lookup name
  | .array _ items => some fun place _ => items[place]?
  | .moment _ => some fun _ _ => none
  | _ => none

/-- A whole number of at most so many bits. -/
def wholeNumber? (bits : Nat) : Toml.Value → Option Nat
  | .integer number => if 0 ≤ number ∧ number < Bits.bound bits then some number.toNat else none
  | _ => none

/-- A setting, or its default. -/
def settingOr? (bits default : Nat) : Option Toml.Value → Option Nat
  | none => some default
  | some value => wholeNumber? bits value

/-- The settings of a session. -/
def SessionSection.ofValue? (value : Toml.Value) : Option SessionSection := do
  let setting ← sectionSettings? value
  let default : SessionSection := {}
  let tickIntervalMs ← settingOr? 64 default.tickIntervalMs (setting 0 "tick_interval_ms")
  let maxFrameBytes ← settingOr? 64 default.maxFrameBytes (setting 1 "max_frame_bytes")
  let commandCapacity ← settingOr? 64 default.commandCapacity (setting 2 "command_capacity")
  return { tickIntervalMs, maxFrameBytes, commandCapacity }

/-- The settings of a send budget. -/
def BandwidthSection.ofValue? (value : Toml.Value) : Option BandwidthSection := do
  let setting ← sectionSettings? value
  let default : BandwidthSection := {}
  let localCap ← settingOr? 32 default.localCap.toNat (setting 0 "local_cap")
  let floor ← settingOr? 32 default.floor.toNat (setting 1 "floor")
  return { localCap := UInt32.ofNat localCap, floor := UInt32.ofNat floor }

namespace SessionConfig

/-- A section, or its default. -/
def sectionOr? {α : Type} (ofValue? : Toml.Value → Option α) (default : α) :
    Option Toml.Value → Option α
  | none => some default
  | some value => ofValue? value

/-- The settings that a file's table gives. -/
def ofEntries? (entries : Toml.Entries) : Option SessionConfig := do
  let session ← sectionOr? SessionSection.ofValue? {} (entries.lookup "session")
  let bandwidth ← sectionOr? BandwidthSection.ofValue? {} (entries.lookup "bandwidth")
  return { session, bandwidth }

/-- The settings that a text gives. -/
def parse (text : String) : Except SessionError SessionConfig :=
  match (Toml.read? text).bind ofEntries? with
  | some config => .ok config
  | none => .error .configParse

/-- The settings in a file, which have to make sense; the defaults if there is no file. -/
def load : (file : Option Bytes) → Except SessionError SessionConfig
  | none => .ok {}
  | some bytes => do
    match Utf8.decode bytes with
    | .error _ => throw .io
    | .ok text =>
      let config ← parse text
      config.validate
      return config

/-! ### Writing -/

/-- A line that gives a setting. -/
def renderSetting (name : String) (number : Nat) : String := s!"{name} = {number}\n"

/-- A file that gives every setting. -/
def render (config : SessionConfig) : String :=
  "[session]\n" ++
  renderSetting "tick_interval_ms" config.session.tickIntervalMs ++
  renderSetting "max_frame_bytes" config.session.maxFrameBytes ++
  renderSetting "command_capacity" config.session.commandCapacity ++
  "\n[bandwidth]\n" ++
  renderSetting "local_cap" config.bandwidth.localCap.toNat ++
  renderSetting "floor" config.bandwidth.floor.toNat

end SessionConfig

end PathWire
