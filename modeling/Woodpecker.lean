import Woodpecker.Model
import Woodpecker.Dependencies
import Woodpecker.Survivors
import Woodpecker.Flatten
import Woodpecker.Quote
import Woodpecker.Envsubst
import Woodpecker.Utf8
import Woodpecker.Planner
import Woodpecker.Plan
import Woodpecker.Forest
import Woodpecker.Sanitize
import Woodpecker.Gitea
