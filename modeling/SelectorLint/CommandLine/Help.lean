/-!
# Help texts

What the program says about itself: its version, and its help in a short form with one
line for each option and in a long form with room around each option.
-/

namespace SelectorLint.CommandLine

/-- The name and the version of the program. -/
def versionText : String := "seass 0.1.0\n"

/-- Lines as a text. -/
def ofLines (lines : List String) : String := String.join (lines.map (· ++ "\n"))

/-- How to call the program. -/
def usageLine : String := "Usage: seass [OPTIONS] [PATH]..."

/-- The lines in front of the options. -/
def helpHead : List String :=
  ["Command line interface for the seass CSS selector linter", "", usageLine, ""]

/-- The lines behind the options. -/
def helpTail : List String :=
  ["",
   "EXAMPLES:",
   "    # Lint the current directory (reads ./seass.toml)",
   "    seass",
   "",
   "    # Lint another project with a shared configuration",
   "    seass --config ci/seass.toml web/styles",
   "",
   "    # Lint two stylesheets and print JSON",
   "    seass --format json a.css b.css"]

/-- The options, each on one line. -/
def shortOptions : List String :=
  ["Arguments:",
   "  [PATH]...  Project directory, or stylesheets to lint individually",
   "",
   "Options:",
   "  -c, --config <FILE>    Configuration file to use instead of <dir>/seass.toml",
   "      --format <FORMAT>  Output format [default: text] [possible values: text, json]",
   "      --no-color         Disable colored output",
   "  -v, --verbose...       Log more (-v debug, -vv trace)",
   "  -q, --quiet            Log nothing",
   "  -h, --help             Print help (see more with '--help')",
   "  -V, --version          Print version"]

/-- The options, each with room around it. -/
def longOptions : List String :=
  ["Arguments:",
   "  [PATH]...",
   "          Project directory, or stylesheets to lint individually",
   "",
   "Options:",
   "  -c, --config <FILE>",
   "          Configuration file to use instead of <dir>/seass.toml",
   "",
   "      --format <FORMAT>",
   "          Output format",
   "",
   "          Possible values:",
   "          - text: One line per finding on stderr, then a summary",
   "          - json: A JSON array on stdout",
   "          ",
   "          [default: text]",
   "",
   "      --no-color",
   "          Disable colored output",
   "",
   "  -v, --verbose...",
   "          Log more (-v debug, -vv trace)",
   "",
   "  -q, --quiet",
   "          Log nothing",
   "",
   "  -h, --help",
   "          Print help (see a summary with '-h')",
   "",
   "  -V, --version",
   "          Print version"]

/-- The help text in its long or its short form. -/
def helpText (long : Bool) : String :=
  ofLines (helpHead ++ (if long then longOptions else shortOptions) ++ helpTail)

end SelectorLint.CommandLine
