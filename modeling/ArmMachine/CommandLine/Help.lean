import ArmMachine.CommandLine.Arguments

/-! What the program says about itself. Each option takes two lines, its form and what it does. -/
namespace ArmMachine.CommandLine

def programName : String := "armv4-run"

def programVersion : String := "0.1.0"

def versionText : String := programName ++ " " ++ programVersion ++ "\n"

/-- An option as it is written, and what it does. -/
structure OptionHelp where
  form : String
  about : String

/-- The options of every run, in the order of help. -/
def commonOptions : List OptionHelp := [
  ⟨"    --config <CONFIG>", "TOML configuration file"⟩,
  ⟨"    --step",
    "Wait for a line on stdin before each instruction (\x60c\x60 runs on, \x60q\x60 quits)"⟩,
  ⟨"    --disasm", "Log every executed instruction at trace level"⟩,
  ⟨"    --max-instructions <MAX_INSTRUCTIONS>", "Stop after this many instructions"⟩,
  ⟨"    --log-level <LOG_LEVEL>", "Log level for stderr output [default: info]"⟩,
  ⟨"-h, --help", "Print help"⟩]

def imageOptions : List OptionHelp := [
  ⟨"    --base <BASE>", "Load address [default: 0]"⟩,
  ⟨"    --entry <ENTRY>", "Entry point; defaults to the load address"⟩]

def kernelOptions : List OptionHelp := [⟨"    --dtb <DTB>", "Device tree blob"⟩]

def versionOption : OptionHelp := ⟨"-V, --version", "Print version"⟩

def OptionHelp.text (o : OptionHelp) : String := "  " ++ o.form ++ "\n          " ++ o.about ++ "\n"

def optionsText (os : List OptionHelp) : String := "\nOptions:\n" ++ String.join (os.map (·.text))

def Command.about : Command → String
  | bin => "Load a flat binary and jump to it"
  | linux => "Boot a Linux kernel image with a device tree"

def helpAbout : String := "Print this message or the help of the given subcommand(s)"

def Topic.usage : Topic → String
  | program => programName ++ " [OPTIONS] <COMMAND>"
  | command .bin => programName ++ " bin [OPTIONS] <IMAGE>"
  | command .linux => programName ++ " linux [OPTIONS] --dtb <DTB> <IMAGE>"
  | help => programName ++ " help [COMMAND]..."

def Topic.about : Topic → String
  | program => "Run an image on the ARMv4 core"
  | command c => c.about
  | help => helpAbout

def Topic.details : Topic → String
  | program =>
    "\nCommands:\n  bin    " ++ Command.bin.about ++ "\n  linux  " ++ Command.linux.about
      ++ "\n  help   " ++ helpAbout ++ "\n" ++ optionsText (commonOptions ++ [versionOption])
  | command .bin =>
    "\nArguments:\n  <IMAGE>  Image file\n" ++ optionsText (imageOptions ++ commonOptions)
  | command .linux =>
    "\nArguments:\n  <IMAGE>  Kernel image (zImage or Image)\n"
      ++ optionsText (kernelOptions ++ commonOptions)
  | help => "\nArguments:\n  [COMMAND]...  Print help for the subcommand(s)\n"

def Topic.text (t : Topic) : String := t.about ++ "\n\nUsage: " ++ t.usage ++ "\n" ++ t.details

def misuseText : String :=
  "error: invalid arguments\n\nUsage: " ++ Topic.program.usage
    ++ "\n\nFor more information, try '--help'.\n"

end ArmMachine.CommandLine
