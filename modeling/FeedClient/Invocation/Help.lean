import FeedClient.Invocation.Reader

/-!
# What is said about an invocation

The help text, the version and what is wrong with a command line.
-/

namespace FeedClient.Invocation

/-- The version of the program. -/
def versionLine : String :=
  "stw 0.1.0\n"

/-- The help text. -/
def helpText : String :=
  "Terminal feed client for the stw micro-posting service\n\n"
    ++ "Usage: stw [OPTIONS] [COMMAND]\n\n"
    ++ "Commands:\n"
    ++ "  feed         Print the feed of the selected view\n"
    ++ "  post         Publish a post, contents may contain markup\n"
    ++ "  delete       Delete a post by key (`alice:post_17b3c`) or control id "
    ++ "(`alice:post_17b3c.c`)\n"
    ++ "  subscribe    Subscribe to a user by name\n"
    ++ "  unsubscribe  Unsubscribe from a user by name\n"
    ++ "  register     Create the acting user on the server\n"
    ++ "  shell        Interactive session (default)\n"
    ++ "  help         Print this message or the help of the given subcommand(s)\n\n"
    ++ "Options:\n"
    ++ "      --server <SERVER>    stw web server URL [env: STW_SERVER=]\n"
    ++ "  -u, --user <USER>        Identifier of the acting user [env: STW_USER=]\n"
    ++ "      --view <VIEW>        Feed shown first (Home, MyTimeline or Discover)\n"
    ++ "      --timeout <SECS>     Request timeout in seconds\n"
    ++ "  -l, --log-level <LEVEL>  Log verbosity [default: info] "
    ++ "[possible values: trace, debug, info, warn, error, off]\n"
    ++ "  -h, --help               Print help\n"
    ++ "  -V, --version            Print version\n"

namespace Refusal

/-- What is printed when a command line is not carried out. -/
def output : Refusal → String
  | help => helpText
  | version => versionLine
  | _ => ""

/-- What is said about a command line that is wrong. -/
def message : Refusal → String
  | help | version => ""
  | unknownArgument => "unexpected argument found"
  | invalidValue => "a value is missing or cannot be chosen"
  | valueValidation => "a value cannot be read"
  | argumentConflict => "an option is given twice"
  | missingRequiredArgument => "an argument of the command is missing"
  | invalidSubcommand => "unrecognized subcommand"
  | tooManyValues => "an option takes no value"

end Refusal

end FeedClient.Invocation
