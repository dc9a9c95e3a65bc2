/-!
# The settings file that comes with the library

Contents:

* `Settings.packagedText` — the text of the file, which is read where no other settings file is found.
-/

namespace FileDepot.Settings

/-- The lines of the file. -/
def packagedLines : List String := [
  "mongo:",
  "  uri: \"mongodb://localhost:27017\"",
  "  database: \"pygridfs\"",
  "  bucket: null",
  "  chunk_size_bytes: null",
  "  connect_timeout_ms: 20000",
  "",
  "logging:",
  "  version: 1",
  "  disable_existing_loggers: false",
  "  formatters:",
  "    standard:",
  "      format: \"%(asctime)s - %(name)s - %(levelname)s - %(message)s\"",
  "  handlers:",
  "    console:",
  "      class: logging.StreamHandler",
  "      level: INFO",
  "      formatter: standard",
  "  root:",
  "    level: INFO",
  "    handlers: [console]",
  "  loggers:",
  "    pymongo:",
  "      level: WARNING"]

/-- The text of the file. -/
def packagedText : String :=
  String.join (packagedLines.map fun line => line ++ "\n")

end FileDepot.Settings
