import ReadmeTables.Text.Basic
/-!
What the program says about its command line.
-/

namespace ReadmeTables.Usage

def lines (list : List String) : Text :=
  list.flatMap fun line => Text.ofString line ++ "\n"

def summary : Text :=
  lines ["usage: tsdocgen [-h] [--input INPUT_PATH] [--dry-run] [--log-file LOG_FILE]",
    "                [-v]",
    "                [path]"]

def details : Text :=
  lines ["Insert TypeDoc method tables into component README files.",
    "",
    "positional arguments:",
    "  path                 Project root containing the packages directory",
    "                       (defaults to current directory).",
    "",
    "options:",
    "  -h, --help           show this help message and exit",
    "  --input INPUT_PATH   Reflection JSON produced by TypeDoc (defaults to",
    "                       jsDoc.json in the project root).",
    "  --dry-run            Preview README changes without writing them.",
    "  --log-file LOG_FILE  Also append log records (including debug output) to",
    "                       this file.",
    "  -v, --verbose        Increase log verbosity for troubleshooting."]

def help : Text :=
  summary ++ "\n" ++ details

end ReadmeTables.Usage
